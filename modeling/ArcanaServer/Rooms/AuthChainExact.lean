import ArcanaServer.Library.Graphs
import ArcanaServer.Library.Trace
import ArcanaServer.Rooms.Short
import Mathlib.Data.Finset.Card

namespace ArcanaServer.Rooms

open Library ArcanaServer.Matrix List Function

def authEventsOf (pdus : List Pdu) (eventId : EventId) : List EventId :=
  ((getPdu pdus eventId).map Pdu.authEvents).getD []

/-- No PDU that is passed on the way claims another room. -/
def StaysIn (pdus : List Pdu) (roomId : RoomId) (starts : Set EventId) :
    Prop :=
  ∀ eventId ∈ visited (authEventsOf pdus) starts, ∀ pdu,
    getPdu pdus eventId = some pdu → inOtherRoom roomId pdu = false

namespace EventNumbers

structure OneToOne (numbers : EventNumbers) : Prop where
  injective : ∀ eventId other short,
    numbers.eventidShorteventid eventId = some short →
    numbers.eventidShorteventid other = some short → eventId = other
  bounded : ∀ eventId short, numbers.eventidShorteventid eventId = some short →
    short ≤ numbers.counter

/-- There is a number left for every one of the events that has none. -/
structure Issues (ids : Finset EventId) (numbers : EventNumbers) : Prop
    extends OneToOne numbers where
  room : numbers.counter +
    {id ∈ ids | numbers.eventidShorteventid id = none}.card ≤ u64Max

def Extends (numbers after : EventNumbers) : Prop :=
  ∀ eventId short, numbers.eventidShorteventid eventId = some short →
    after.eventidShorteventid eventId = some short

theorem Extends.refl (numbers : EventNumbers) : numbers.Extends numbers :=
  fun _ _ found => found

theorem Extends.trans {first second third : EventNumbers}
    (left : first.Extends second) (right : second.Extends third) :
    first.Extends third :=
  fun eventId short found => right _ _ (left eventId short found)

theorem getOrCreate_extends {ids : Finset EventId} {numbers : EventNumbers}
    {eventId : EventId} (listed : eventId ∈ ids)
    (issues : Issues ids numbers) :
    numbers.Extends (numbers.getOrCreate eventId).2 ∧
      Issues ids (numbers.getOrCreate eventId).2 ∧
      (numbers.getOrCreate eventId).2.eventidShorteventid eventId =
        some (numbers.getOrCreate eventId).1 := by
  unfold getOrCreate
  cases known : numbers.eventidShorteventid eventId with
  | some short => exact ⟨Extends.refl numbers, issues, known⟩
  | none =>
      have room := issues.room
      have waits : eventId ∈
          {id ∈ ids | numbers.eventidShorteventid id = none} :=
        Finset.mem_filter.mpr ⟨listed, known⟩
      have some_ := Finset.card_pos.mpr ⟨eventId, waits⟩
      have next : nextCounter numbers.counter = numbers.counter + 1 :=
        nextCounter_of_lt (by omega)
      simp only [next]
      have kept : ∀ other short,
          numbers.eventidShorteventid other = some short →
          other ≠ eventId := by
        rintro other short found rfl
        rw [known] at found
        cases found
      have row : ∀ other short, update numbers.eventidShorteventid
          eventId (some (numbers.counter + 1)) other = some short →
          numbers.eventidShorteventid other = some short ∨
            other = eventId ∧ short = numbers.counter + 1 := by
        intro other short found
        rw [update_apply] at found
        split at found
        next same =>
          cases found
          exact .inr ⟨same, rfl⟩
        · exact .inl found
      refine ⟨?_, ⟨⟨?_, ?_⟩, ?_⟩, update_self _ _ _⟩
      · intro other short found
        exact (update_of_ne (kept other short found) _ _).trans found
      · intro one other short isOne isOther
        rcases row one short isOne with oldOne | newOne
        · rcases row other short isOther with oldOther | newOther
          · exact issues.injective one other short oldOne oldOther
          · have low := issues.bounded one short oldOne
            rw [newOther.2] at low
            exact absurd low (Nat.not_succ_le_self _)
        · rcases row other short isOther with oldOther | newOther
          · have low := issues.bounded other short oldOther
            rw [newOne.2] at low
            exact absurd low (Nat.not_succ_le_self _)
          · rw [newOne.1, newOther.1]
      · intro other short found
        rcases row other short found with old | new
        · exact Nat.le_succ_of_le (issues.bounded other short old)
        · exact Nat.le_of_eq new.2
      · have left : {id ∈ ids | update numbers.eventidShorteventid eventId
            (some (numbers.counter + 1)) id = none} =
            {id ∈ ids | numbers.eventidShorteventid id = none}.erase
              eventId := by
          ext id
          rw [Finset.mem_erase, Finset.mem_filter, Finset.mem_filter]
          by_cases same : id = eventId
          · simp [same]
          · simp [same]
        simp only [left]
        have fewer := Finset.card_erase_of_mem waits
        omega

end EventNumbers

open EventNumbers

variable {ids : Finset EventId}

structure Added (ids : Finset EventId) (events : List EventId)
    (walk after : Walk) : Prop where
  extends_ : walk.numbers.Extends after.numbers
  issues : Issues ids after.numbers
  nodup : after.found.Nodup
  found : ∀ short ∈ walk.found, short ∈ after.found
  todo : ∀ eventId ∈ walk.todo, eventId ∈ after.todo
  covers : ∀ eventId ∈ events, ∃ short ∈ after.found,
    after.numbers.eventidShorteventid eventId = some short
  new : ∀ short ∈ after.found, short ∈ walk.found ∨
    ∃ eventId ∈ events, eventId ∈ after.todo ∧
      after.numbers.eventidShorteventid eventId = some short
  cited : ∀ eventId ∈ after.todo, eventId ∈ walk.todo ∨ eventId ∈ events
  balance : after.todo.length + walk.found.length =
    walk.todo.length + after.found.length

theorem added_nil {walk : Walk} (issues : Issues ids walk.numbers)
    (nodup : walk.found.Nodup) : Added ids [] walk walk where
  extends_ := EventNumbers.Extends.refl _
  issues := issues
  nodup := nodup
  found _ member := member
  todo _ member := member
  covers _ member := by cases member
  new _ member := .inl member
  cited _ member := .inl member
  balance := rfl

theorem added_one {walk : Walk} (issues : Issues ids walk.numbers)
    (nodup : walk.found.Nodup) {eventId : EventId} (listed : eventId ∈ ids) :
    Added ids [eventId] walk (walk.addAuthEvent eventId) := by
  obtain ⟨kept, again, isShort⟩ :=
    EventNumbers.getOrCreate_extends listed issues
  unfold Walk.addAuthEvent
  generalize walk.numbers.getOrCreate eventId = drawn at kept again isShort
  obtain ⟨short, numbers⟩ := drawn
  simp only
  split
  next known =>
    exact {
      extends_ := kept
      issues := again
      nodup := nodup
      found := fun _ member => member
      todo := fun _ member => member
      covers := by
        intro other member
        rw [mem_singleton.mp member]
        exact ⟨short, known, isShort⟩
      new := fun _ member => .inl member
      cited := fun _ member => .inl member
      balance := rfl }
  next unknown =>
    refine {
      extends_ := kept
      issues := again
      nodup := ?_
      found := fun _ member => mem_append_left _ member
      todo := fun _ member => mem_append_left _ member
      covers := ?_
      new := ?_
      cited := ?_
      balance := by simp; omega }
    · exact nodup_append.mpr ⟨nodup, by simp,
        fun one member other isShort same => unknown (by
          rw [mem_singleton.mp isShort] at same
          exact same ▸ member)⟩
    · intro other member
      rw [mem_singleton.mp member]
      exact ⟨short, by simp, isShort⟩
    · intro other member
      refine (mem_append.mp member).imp_right (fun last => ?_)
      rw [mem_singleton.mp last]
      exact ⟨eventId, by simp, by simp, isShort⟩
    · intro other member
      exact mem_append.mp member

theorem Added.trans {first second : List EventId} {walk middle after : Walk}
    (left : Added ids first walk middle)
    (right : Added ids second middle after) :
    Added ids (first ++ second) walk after where
  extends_ := left.extends_.trans right.extends_
  issues := right.issues
  nodup := right.nodup
  found short member := right.found _ (left.found short member)
  todo eventId member := right.todo _ (left.todo eventId member)
  covers eventId member := by
    rcases mem_append.mp member with early | late
    · obtain ⟨short, found, isShort⟩ := left.covers eventId early
      exact ⟨short, right.found _ found, right.extends_ _ _ isShort⟩
    · exact right.covers eventId late
  new short member := by
    rcases right.new short member with earlier | new
    · rcases left.new short earlier with old | new
      · exact .inl old
      · obtain ⟨eventId, cited, waits, isShort⟩ := new
        exact .inr ⟨eventId, mem_append_left _ cited,
          right.todo _ waits, right.extends_ _ _ isShort⟩
    · obtain ⟨eventId, cited, waits, isShort⟩ := new
      exact .inr ⟨eventId, mem_append_right _ cited, waits, isShort⟩
  cited eventId member := by
    rcases right.cited eventId member with earlier | cited
    · exact (left.cited eventId earlier).imp_right
        (fun cited => mem_append_left _ cited)
    · exact .inr (mem_append_right _ cited)
  balance := by
    have one := left.balance
    have two := right.balance
    omega

theorem added_all {events : List EventId}
    (listed : ∀ eventId ∈ events, eventId ∈ ids) {walk : Walk}
    (issues : Issues ids walk.numbers) (nodup : walk.found.Nodup) :
    Added ids events walk (events.foldl Walk.addAuthEvent walk) := by
  induction events generalizing walk with
  | nil => exact added_nil issues nodup
  | cons eventId rest ih =>
      obtain ⟨here, later⟩ := forall_mem_cons.mp listed
      have first := added_one issues nodup here
      exact first.trans (ih later first.issues first.nodup)

/-- A chain holds the short ids of what the events lead to. -/
structure Chained (pdus : List Pdu) (numbers : EventNumbers)
    (starts : Set EventId) (chain : List ShortEventId) : Prop where
  complete : ∀ eventId ∈ descendants (authEventsOf pdus) starts,
    ∃ short ∈ chain, numbers.eventidShorteventid eventId = some short
  sound : ∀ short ∈ chain, ∃ eventId ∈ descendants (authEventsOf pdus) starts,
      numbers.eventidShorteventid eventId = some short

theorem Chained.extends_ {pdus : List Pdu} {numbers after : EventNumbers}
    {starts : Set EventId} {chain : List ShortEventId}
    (chained : Chained pdus numbers starts chain)
    (kept : numbers.Extends after) : Chained pdus after starts chain where
  complete eventId inside := by
    obtain ⟨short, member, isShort⟩ := chained.complete eventId inside
    exact ⟨short, member, kept _ _ isShort⟩
  sound short member := by
    obtain ⟨eventId, inside, isShort⟩ := chained.sound short member
    exact ⟨eventId, inside, kept _ _ isShort⟩

section

variable {pdus : List Pdu} {roomId : RoomId} {start : EventId}

theorem getPdu_mem {eventId : EventId} {pdu : Pdu}
    (found : getPdu pdus eventId = some pdu) :
    pdu ∈ pdus ∧ pdu.eventId = eventId := by
  unfold getPdu at found
  exact ⟨List.mem_of_find?_eq_some found, by simpa using find?_some found⟩

theorem mem_authEventsOf {eventId cited : EventId} :
    cited ∈ authEventsOf pdus eventId ↔
      ∃ pdu, getPdu pdus eventId = some pdu ∧ cited ∈ pdu.authEvents := by
  unfold authEventsOf
  cases getPdu pdus eventId with
  | none | some pdu => simp

theorem mentioned_of_descendant {starts : Set EventId} {eventId : EventId}
    (inside : eventId ∈ descendants (authEventsOf pdus) starts) :
    eventId ∈ pdus.flatMap Pdu.authEvents := by
  have cited : ∀ node target, target ∈ authEventsOf pdus node →
      target ∈ pdus.flatMap Pdu.authEvents := by
    intro node target step
    obtain ⟨pdu, found, cited⟩ := mem_authEventsOf.mp step
    exact mem_flatMap.mpr ⟨pdu, (getPdu_mem found).1, cited⟩
  exact descendants_subset (fun node => node ∈ pdus.flatMap Pdu.authEvents)
    (fun _ _ target step => cited _ target step)
    (fun _ _ target step => cited _ target step) inside

def Expanded (pdus : List Pdu) (roomId : RoomId) (walk : Walk)
    (eventId : EventId) : Prop :=
  (∀ pdu, getPdu pdus eventId = some pdu → inOtherRoom roomId pdu = false) ∧
  ∀ cited ∈ authEventsOf pdus eventId, ∃ short ∈ walk.found,
    walk.numbers.eventidShorteventid cited = some short

structure WalkInv (ids : Finset EventId) (pdus : List Pdu) (roomId : RoomId)
    (start : EventId) (first : EventNumbers) (walk : Walk) : Prop where
  extends_ : first.Extends walk.numbers
  issues : Issues ids walk.numbers
  nodup : walk.found.Nodup
  sound : ∀ short ∈ walk.found,
    ∃ eventId ∈ descendants (authEventsOf pdus) {start},
      walk.numbers.eventidShorteventid eventId = some short
  waits : ∀ eventId ∈ walk.todo, eventId ∈ visited (authEventsOf pdus) {start}
  expanded : ∀ eventId, (eventId = start ∨ ∃ short ∈ walk.found,
      walk.numbers.eventidShorteventid eventId = some short) →
    eventId ∈ walk.todo ∨ Expanded pdus roomId walk eventId

namespace WalkInv

variable {first : EventNumbers} {walk : Walk}

theorem length_le (inv : WalkInv ids pdus roomId start first walk) :
    walk.found.length ≤ (pdus.flatMap Pdu.authEvents).length := by
  have inside : walk.found ⊆ (pdus.flatMap Pdu.authEvents).filterMap
      walk.numbers.eventidShorteventid := by
    intro short member
    obtain ⟨eventId, reached, isShort⟩ := inv.sound short member
    exact mem_filterMap.mpr ⟨eventId, mentioned_of_descendant reached, isShort⟩
  exact Nat.le_trans (subperm_of_subset inv.nodup inside).length_le
    (length_filterMap_le _ _)

theorem chained (inv : WalkInv ids pdus roomId start first walk)
    (done : walk.todo = []) :
    Chained pdus walk.numbers {start} walk.found ∧
      StaysIn pdus roomId {start} := by
  have expanded : ∀ eventId, (eventId = start ∨ ∃ short ∈ walk.found,
      walk.numbers.eventidShorteventid eventId = some short) →
      Expanded pdus roomId walk eventId := by
    intro eventId passed
    refine (inv.expanded eventId passed).resolve_left ?_
    rw [done]
    exact not_mem_nil
  have complete : ∀ eventId ∈ descendants (authEventsOf pdus) {start},
      ∃ short ∈ walk.found,
        walk.numbers.eventidShorteventid eventId = some short := by
    intro eventId inside
    refine descendants_subset (fun node => ∃ short ∈ walk.found,
      walk.numbers.eventidShorteventid node = some short) ?_ ?_ inside
    · intro node isStart
      exact (expanded node (.inl isStart)).2
    · intro node found
      exact (expanded node (.inr found)).2
  refine ⟨⟨complete, inv.sound⟩, ?_⟩
  intro eventId passed
  rcases mem_visited.mp passed with isStart | inside
  · exact (expanded eventId (.inl isStart)).1
  · exact (expanded eventId (.inr (complete eventId inside))).1

theorem pass {eventId : EventId} {todo : List EventId}
    (inv : WalkInv ids pdus roomId start first walk)
    (queue : walk.todo = eventId :: todo)
    (missing : getPdu pdus eventId = none) :
    WalkInv ids pdus roomId start first { walk with todo } where
  extends_ := inv.extends_
  issues := inv.issues
  nodup := inv.nodup
  sound := inv.sound
  waits other member :=
    inv.waits other (by rw [queue]; exact mem_cons_of_mem _ member)
  expanded other passed := by
    rcases inv.expanded other passed with waits | expanded
    · rw [queue] at waits
      rcases mem_cons.mp waits with here | later
      · subst here
        refine .inr ⟨?_, ?_⟩
        · intro pdu found
          rw [missing] at found
          cases found
        · intro cited member
          obtain ⟨pdu, found, _⟩ := mem_authEventsOf.mp member
          rw [missing] at found
          cases found
      · exact .inl later
    · exact .inr expanded

theorem expand {eventId : EventId} {todo : List EventId} {pdu : Pdu}
    (inv : WalkInv ids pdus roomId start first walk)
    (queue : walk.todo = eventId :: todo)
    (found : getPdu pdus eventId = some pdu)
    (inRoom : inOtherRoom roomId pdu = false) {after : Walk}
    (added : Added ids pdu.authEvents { walk with todo } after) :
    WalkInv ids pdus roomId start first after := by
  have reached : eventId ∈ visited (authEventsOf pdus) {start} :=
    inv.waits eventId (by rw [queue]; exact mem_cons_self)
  have leads : ∀ cited ∈ pdu.authEvents,
      cited ∈ descendants (authEventsOf pdus) {start} := fun cited member =>
    descendants_step reached (mem_authEventsOf.mpr ⟨pdu, found, member⟩)
  refine {
    extends_ := inv.extends_.trans added.extends_
    issues := added.issues
    nodup := added.nodup
    sound := ?_
    waits := ?_
    expanded := ?_ }
  · intro short member
    rcases added.new short member with old | new
    · obtain ⟨other, inside, isShort⟩ := inv.sound short old
      exact ⟨other, inside, added.extends_ _ _ isShort⟩
    · obtain ⟨cited, member, _, isShort⟩ := new
      exact ⟨cited, leads cited member, isShort⟩
  · intro other member
    rcases added.cited other member with old | cited
    · exact inv.waits other (by rw [queue]; exact mem_cons_of_mem _ old)
    · exact mem_visited.mpr (.inr (leads other cited))
  · intro other passed
    have before : (other = start ∨ ∃ short ∈ walk.found,
        walk.numbers.eventidShorteventid other = some short) ∨
        other ∈ after.todo := by
      rcases passed with isStart | found
      · exact .inl (.inl isStart)
      · obtain ⟨short, member, isShort⟩ := found
        rcases added.new short member with old | new
        · obtain ⟨same, _, sameShort⟩ := inv.sound short old
          have equal := added.issues.injective _ _ _ isShort
            (added.extends_ _ _ sameShort)
          exact .inl (.inr ⟨short, old, equal ▸ sameShort⟩)
        · obtain ⟨cited, _, waits, sameShort⟩ := new
          rw [added.issues.injective _ _ _ isShort sameShort]
          exact .inr waits
    rcases before with passed | waits
    · rcases inv.expanded other passed with waits | expanded
      · rw [queue] at waits
        rcases mem_cons.mp waits with here | later
        · subst here
          refine .inr ⟨?_, ?_⟩
          · intro same isSame
            rw [found] at isSame
            cases isSame
            exact inRoom
          · intro cited member
            obtain ⟨same, isSame, inside⟩ := mem_authEventsOf.mp member
            rw [found] at isSame
            cases isSame
            exact added.covers cited inside
        · exact .inl (added.todo other later)
      · refine .inr ⟨expanded.1, fun cited member => ?_⟩
        obtain ⟨short, old, isShort⟩ := expanded.2 cited member
        exact ⟨short, added.found _ old, added.extends_ _ _ isShort⟩
    · exact .inl waits

end WalkInv

def wrongRoom : AuthChainError := .forbidden "auth event for incorrect room"

def Leaves (pdus : List Pdu) (roomId : RoomId) (start : EventId) : Prop :=
  ∃ eventId ∈ visited (authEventsOf pdus) {start}, ∃ pdu,
    getPdu pdus eventId = some pdu ∧ inOtherRoom roomId pdu = true

theorem walkLoop_meets {first : EventNumbers} (rounds : Nat) {walk : Walk}
    (cited : ∀ pdu ∈ pdus, ∀ eventId ∈ pdu.authEvents, eventId ∈ ids)
    (inv : WalkInv ids pdus roomId start first walk)
    (enough : walk.todo.length + (pdus.flatMap Pdu.authEvents).length ≤
      rounds + walk.found.length) :
    Meets (fun found numbers => (first.Extends numbers ∧ Issues ids numbers) ∧
        Chained pdus numbers {start} found ∧ StaysIn pdus roomId {start})
      (fun error numbers => (first.Extends numbers ∧ Issues ids numbers) ∧
        error = wrongRoom ∧ Leaves pdus roomId start)
      (walkLoop pdus roomId rounds walk) := by
  induction rounds generalizing walk with
  | zero =>
      cases queue : walk.todo with
      | nil =>
          simp only [walkLoop, queue]
          exact ⟨⟨inv.extends_, inv.issues⟩, inv.chained queue⟩
      | cons eventId todo =>
          have bound := inv.length_le
          rw [queue, length_cons] at enough
          omega
  | succ rounds ih =>
      cases queue : walk.todo with
      | nil =>
          simp only [walkLoop, queue]
          exact ⟨⟨inv.extends_, inv.issues⟩, inv.chained queue⟩
      | cons eventId todo =>
          rw [queue, length_cons] at enough
          cases found : getPdu pdus eventId with
          | none =>
              unfold walkLoop
              simp only [queue, found]
              exact ih (inv.pass queue found) (by simp only; omega)
          | some pdu =>
              cases room : inOtherRoom roomId pdu with
              | true =>
                  unfold walkLoop
                  simp only [queue, found, room, if_true]
                  exact ⟨⟨inv.extends_, inv.issues⟩, rfl, eventId,
                    inv.waits eventId (by simp [queue]), pdu, found, room⟩
              | false =>
                  unfold walkLoop
                  simp only [queue, found, room, Bool.false_eq_true, if_false]
                  have added : Added ids pdu.authEvents { walk with todo } _ :=
                    added_all (cited pdu (getPdu_mem found).1) inv.issues
                      inv.nodup
                  refine ih (inv.expand queue found room added) ?_
                  have balance := added.balance
                  simp only at balance
                  omega

end

def ValidEntry (world : AuthWorld) (key chain : List ShortEventId) : Prop :=
  (∃ starts : List EventId,
    starts.map world.numbers.eventidShorteventid = key.map some ∧
    Chained world.pdus world.numbers { eventId | eventId ∈ starts } chain) ∧
  ∀ short ∈ key, (world.shorteventidAuthchain short).isSome = true

structure CacheInv (ids : Finset EventId) (world : AuthWorld) : Prop where
  cited : ∀ pdu ∈ world.pdus, ∀ eventId ∈ pdu.authEvents, eventId ∈ ids
  numbers : Issues ids world.numbers
  stored : ∀ short chain, world.shorteventidAuthchain short = some chain →
    ∃ eventId, world.numbers.eventidShorteventid eventId = some short ∧
      Chained world.pdus world.numbers {eventId} chain
  memory : world.authChainCache.Holds (ValidEntry world)

def Names (numbers : EventNumbers) (starts : List Numbered) : Prop :=
  ∀ start ∈ starts, numbers.eventidShorteventid start.2 = some start.1

def eventsOf (starts : List Numbered) : Set EventId :=
  { eventId | ∃ start ∈ starts, start.2 = eventId }

structure Grows (touched : List ShortEventId) (world after : AuthWorld) :
    Prop where
  pdus : after.pdus = world.pdus
  extends_ : world.numbers.Extends after.numbers
  kept : ∀ short, short ∉ touched →
    after.shorteventidAuthchain short = world.shorteventidAuthchain short
  stays : ∀ short, (world.shorteventidAuthchain short).isSome = true →
    (after.shorteventidAuthchain short).isSome = true

variable (ids : Finset EventId) (before : AuthWorld) (roomId : RoomId)
  (starts : List Numbered)

structure Gathered (chain : List ShortEventId) (world : AuthWorld) : Prop where
  inv : CacheInv ids world
  grows : Grows (starts.map Prod.fst) before world
  chained : Chained before.pdus world.numbers (eventsOf starts) chain
  checked : ∀ start ∈ starts, StaysIn before.pdus roomId {start.2} ∨
    (before.shorteventidAuthchain start.1).isSome = true
  stored : ∀ start ∈ starts, (world.shorteventidAuthchain start.1).isSome = true

structure Failed (error : AuthChainError) (world : AuthWorld) : Prop where
  inv : CacheInv ids world
  pdus : world.pdus = before.pdus
  wrong : error = wrongRoom
  leaves : ∃ start ∈ starts, Leaves before.pdus roomId start.2

variable {ids}

theorem Grows.refl (touched : List ShortEventId) (world : AuthWorld) :
    Grows touched world world :=
  ⟨rfl, EventNumbers.Extends.refl _, fun _ _ => rfl, fun _ has => has⟩

theorem Grows.trans {first second : List ShortEventId}
    {world middle after : AuthWorld} (left : Grows first world middle)
    (right : Grows second middle after) :
    Grows (first ++ second) world after where
  pdus := right.pdus.trans left.pdus
  extends_ := left.extends_.trans right.extends_
  kept short untouched := by
    rw [mem_append, not_or] at untouched
    rw [right.kept short untouched.2, left.kept short untouched.1]
  stays short has := right.stays short (left.stays short has)

variable {chain : List ShortEventId}

theorem Chained.congr {pdus : List Pdu} {numbers : EventNumbers}
    {starts : Set EventId} {other : List ShortEventId}
    (chained : Chained pdus numbers starts chain)
    (same : ∀ short, short ∈ other ↔ short ∈ chain) :
    Chained pdus numbers starts other where
  complete eventId inside := by
    obtain ⟨short, member, isShort⟩ := chained.complete eventId inside
    exact ⟨short, (same short).mpr member, isShort⟩
  sound short member := chained.sound short ((same short).mp member)

theorem Chained.append {pdus : List Pdu} {numbers : EventNumbers}
    {left right : List Numbered} {more : List ShortEventId}
    (first : Chained pdus numbers (eventsOf left) chain)
    (second : Chained pdus numbers (eventsOf right) more) :
    Chained pdus numbers (eventsOf (left ++ right)) (chain ++ more) where
  complete eventId inside := by
    obtain ⟨begin_, ⟨start, member, rfl⟩, path⟩ := inside
    rcases mem_append.mp member with early | late
    · obtain ⟨short, listed, isShort⟩ :=
        first.complete eventId ⟨_, ⟨start, early, rfl⟩, path⟩
      exact ⟨short, mem_append_left _ listed, isShort⟩
    · obtain ⟨short, listed, isShort⟩ :=
        second.complete eventId ⟨_, ⟨start, late, rfl⟩, path⟩
      exact ⟨short, mem_append_right _ listed, isShort⟩
  sound short member := by
    rcases mem_append.mp member with early | late
    · obtain ⟨eventId, ⟨_, ⟨start, listed, rfl⟩, path⟩, isShort⟩ :=
        first.sound short early
      exact ⟨eventId, ⟨_, ⟨start, mem_append_left _ listed, rfl⟩, path⟩,
        isShort⟩
    · obtain ⟨eventId, ⟨_, ⟨start, listed, rfl⟩, path⟩, isShort⟩ :=
        second.sound short late
      exact ⟨eventId, ⟨_, ⟨start, mem_append_right _ listed, rfl⟩, path⟩,
        isShort⟩

theorem Gathered.append {before middle after : AuthWorld} {roomId : RoomId}
    {left right : List Numbered} {more : List ShortEventId}
    (first : Gathered ids before roomId left chain middle)
    (second : Gathered ids middle roomId right more after)
    (namesLeft : Names before.numbers left)
    (namesRight : Names before.numbers right)
    (issues : Issues ids before.numbers) :
    Gathered ids before roomId (left ++ right) (chain ++ more) after where
  inv := second.inv
  grows := by
    rw [map_append]
    exact first.grows.trans second.grows
  chained := by
    have later := second.chained
    rw [first.grows.pdus] at later
    exact (first.chained.extends_ second.grows.extends_).append later
  checked start member := by
    rcases mem_append.mp member with early | late
    · exact first.checked start early
    · rcases second.checked start late with stays | cached
      · rw [first.grows.pdus] at stays
        exact .inl stays
      · by_cases touched : start.1 ∈ left.map Prod.fst
        · obtain ⟨twin, listed, same⟩ := mem_map.mp touched
          have isTwin := namesLeft twin listed
          rw [same] at isTwin
          have equal := issues.injective _ _ _ isTwin (namesRight start late)
          rw [← equal, ← same]
          exact first.checked twin listed
        · rw [first.grows.kept _ touched] at cached
          exact .inr cached
  stored start member := by
    rcases mem_append.mp member with early | late
    · exact second.grows.stays _ (first.stored start early)
    · exact second.stored start late

theorem gathered_nil (roomId : RoomId) {world : AuthWorld}
    (inv : CacheInv ids world) : Gathered ids world roomId [] [] world := by
  refine ⟨inv, Grows.refl _ world, ⟨?_, ?_⟩, ?_, ?_⟩
  · rintro eventId ⟨_, ⟨start, member, _⟩, _⟩
    cases member
  · intro short member
    cases member
  · intro start member
    cases member
  · intro start member
    cases member

section

variable {τ : Type} {roomId : RoomId} {startsOf : τ → List Numbered}
  {action : τ → AuthM (List ShortEventId)} {world : AuthWorld}

theorem addChain_meets {starts done : List Numbered} {item : τ}
    {middle : AuthWorld} {chain : List ShortEventId}
    (numbers : Issues ids world.numbers) (names : Names world.numbers starts)
    (gathered : Gathered ids world roomId done chain middle)
    (each : Meets (Gathered ids middle roomId (startsOf item))
      (Failed ids middle roomId (startsOf item)) (action item middle))
    (inside : ∀ start ∈ done ++ startsOf item, start ∈ starts) :
    Meets (Gathered ids world roomId (done ++ startsOf item))
      (Failed ids world roomId starts) (addChain action chain item middle) := by
  have namesDone : Names world.numbers done := fun start member =>
    names start (inside start (mem_append_left _ member))
  have namesItem : Names world.numbers (startsOf item) := fun start member =>
    names start (inside start (mem_append_right _ member))
  have grown : Meets
      (fun more after =>
        Gathered ids world roomId (done ++ startsOf item) (chain ++ more) after)
      (Failed ids world roomId starts) (action item middle) := by
    refine each.mono ?_ ?_
    · intro more after second
      exact gathered.append second namesDone namesItem numbers
    · intro error after failed
      obtain ⟨start, member, leaves⟩ := failed.leaves
      rw [gathered.grows.pdus] at leaves
      exact ⟨failed.inv, failed.pdus.trans gathered.grows.pdus, failed.wrong,
        start, inside start (mem_append_right _ member), leaves⟩
  exact grown.bind (fun more after both => both)

theorem collectChains_meets (startsOf : τ → List Numbered)
    (each : ∀ item world, CacheInv ids world →
      Names world.numbers (startsOf item) → Meets (Gathered ids world roomId (startsOf item))
        (Failed ids world roomId (startsOf item)) (action item world))
    (items : List τ) (inv : CacheInv ids world)
    (names : Names world.numbers (items.flatMap startsOf)) :
    Meets (Gathered ids world roomId (items.flatMap startsOf))
      (Failed ids world roomId (items.flatMap startsOf))
      (collectChains action items world) := by
  have whole : ∀ (rest done : List τ) (chain : List ShortEventId)
      (middle : AuthWorld), done ++ rest = items →
      Gathered ids world roomId (done.flatMap startsOf) chain middle →
      Meets (Gathered ids world roomId (items.flatMap startsOf))
        (Failed ids world roomId (items.flatMap startsOf))
        (rest.foldlM (addChain action) chain middle) := by
    intro rest
    induction rest with
    | nil =>
        intro done chain middle split gathered
        rw [append_nil] at split
        subst split
        exact gathered
    | cons item rest ih =>
        intro done chain middle split gathered
        have grouped : (done ++ [item]).flatMap startsOf =
            done.flatMap startsOf ++ startsOf item := by simp
        have inside : ∀ start ∈ done.flatMap startsOf ++ startsOf item,
            start ∈ items.flatMap startsOf := by
          intro start member
          rw [← split, append_cons, flatMap_append, grouped]
          exact mem_append_left _ member
        have namesItem : Names middle.numbers (startsOf item) :=
          fun start member => gathered.grows.extends_ _ _
            (names start (inside start (mem_append_right _ member)))
        have first := addChain_meets inv.numbers names gathered
          (each item middle gathered.inv namesItem) inside
        rw [foldlM_cons]
        refine first.bind (fun next after both => ?_)
        refine ih (done ++ [item]) next after (by simp [← split]) ?_
        rw [grouped]
        exact both
  exact whole items [] [] world rfl (gathered_nil roomId inv)

end

section

variable {roomId : RoomId} {world after : AuthWorld}
  {key chain : List ShortEventId}

theorem ValidEntry.mono (valid : ValidEntry world key chain)
    (pdus : after.pdus = world.pdus)
    (kept : world.numbers.Extends after.numbers)
    (stays : ∀ short, (world.shorteventidAuthchain short).isSome = true →
      (after.shorteventidAuthchain short).isSome = true) :
    ValidEntry after key chain := by
  obtain ⟨⟨starts, named, chained⟩, stored⟩ := valid
  refine ⟨⟨starts, ?_, ?_⟩, fun short member => stays short
    (stored short member)⟩
  · rw [← named]
    refine map_congr_left (fun eventId member => ?_)
    have listed : world.numbers.eventidShorteventid eventId ∈
        key.map some := named ▸ mem_map_of_mem member
    obtain ⟨short, _, isShort⟩ := mem_map.mp listed
    rw [← isShort]
    exact kept eventId short isShort.symm
  · rw [pdus]
    exact chained.extends_ kept

theorem ValidEntry.chained {starts : List Numbered}
    (valid : ValidEntry world (starts.map Prod.fst) chain)
    (numbers : Issues ids world.numbers) (names : Names world.numbers starts) :
    Chained world.pdus world.numbers (eventsOf starts) chain := by
  obtain ⟨⟨events, named, chained⟩, _⟩ := valid
  have same : ∀ (starts : List Numbered) (events : List EventId),
      Names world.numbers starts →
      events.map world.numbers.eventidShorteventid =
        (starts.map Prod.fst).map some →
      events = starts.map Prod.snd := by
    intro starts
    induction starts with
    | nil =>
        intro events _ named
        simpa using named
    | cons start rest ih =>
        intro events names named
        cases events with
        | nil => cases named
        | cons eventId events =>
            simp only [map_cons, List.cons.injEq] at named
            have first : eventId = start.2 := numbers.injective _ _ _ named.1
              (names start mem_cons_self)
            have later := ih events
              (fun other member => names other (mem_cons_of_mem _ member))
              named.2
            rw [first, later, map_cons]
  rw [same starts events names named] at chained
  have equal : { eventId | eventId ∈ starts.map Prod.snd } =
      eventsOf starts := by
    ext eventId
    exact mem_map
  rwa [equal] at chained

theorem validEntry_single {short : ShortEventId} {eventId : EventId}
    (isShort : world.numbers.eventidShorteventid eventId = some short)
    (chained : Chained world.pdus world.numbers {eventId} chain)
    (stored : (world.shorteventidAuthchain short).isSome = true) :
    ValidEntry world [short] chain := by
  refine ⟨⟨[eventId], by simp [isShort], ?_⟩, by simpa using stored⟩
  have equal : { other | other ∈ [eventId] } = ({eventId} : Set EventId) := by
    ext other
    simp
  rwa [equal]

theorem getCached_run (inv : CacheInv ids world) (key : List ShortEventId) :
    ∃ found authChainCache, getCachedEventidAuthchain key world =
        .ok found { world with authChainCache } ∧
      CacheInv ids { world with authChainCache } ∧
      ∀ chain, found = some chain → ValidEntry world key chain := by
  obtain ⟨valid, holds⟩ := inv.memory.getMut key
  unfold getCachedEventidAuthchain
  cases hit : world.authChainCache.getMut key with
  | mk found authChainCache =>
      rw [hit] at valid holds
      have kept : ∀ {cache : AuthCache}, cache.Holds (ValidEntry world) →
          CacheInv ids { world with authChainCache := cache } :=
        fun held => ⟨inv.cited, inv.numbers, inv.stored, held⟩
      cases found with
      | some chain =>
          exact ⟨some chain, authChainCache, rfl, kept holds, valid⟩
      | none =>
          simp only
          split
          next short =>
            cases row : world.shorteventidAuthchain short with
            | none =>
                exact ⟨none, authChainCache, rfl, kept holds,
                  fun chain found => by cases found⟩
            | some chain =>
                obtain ⟨eventId, isShort, chained⟩ := inv.stored short chain row
                have entry : ValidEntry world [short] chain :=
                  validEntry_single isShort chained (by rw [row]; rfl)
                refine ⟨some chain, _, rfl, kept (holds.insert entry), ?_⟩
                intro other same
                cases same
                exact entry
          · exact ⟨none, authChainCache, rfl, kept holds,
              fun chain found => by cases found⟩

theorem CacheInv.extends_ (inv : CacheInv ids world) {numbers : EventNumbers}
    (kept : world.numbers.Extends numbers) (issues : Issues ids numbers) :
    CacheInv ids { world with numbers } where
  cited := inv.cited
  numbers := issues
  stored short chain row := by
    obtain ⟨eventId, isShort, chained⟩ := inv.stored short chain row
    exact ⟨eventId, kept _ _ isShort, chained.extends_ kept⟩
  memory entry member :=
    (inv.memory entry member).mono rfl kept (fun _ has => has)

theorem cache_single (inv : CacheInv ids world) {start : Numbered}
    (named : world.numbers.eventidShorteventid start.2 = some start.1)
    (chained : Chained world.pdus world.numbers {start.2} chain) :
    ∃ after, cacheAuthChainVec [start.1] chain world = .ok () after ∧
      CacheInv ids after ∧ Grows [start.1] world after ∧
      after.numbers = world.numbers ∧
      (after.shorteventidAuthchain start.1).isSome = true := by
  refine ⟨_, rfl, ⟨inv.cited, inv.numbers, ?_, ?_⟩,
    ⟨rfl, .refl _, ?_, ?_⟩, rfl, by simp⟩
  · intro short stored row
    rcases update_eq_some row with old | new
    · exact inv.stored short stored old
    · obtain ⟨rfl, rfl⟩ := new
      exact ⟨start.2, named, chained⟩
  · have stays : ∀ short, (world.shorteventidAuthchain short).isSome = true →
        (update world.shorteventidAuthchain start.1 (some chain)
          short).isSome = true := by
      intro short has
      rw [update_apply]
      split
      · rfl
      · exact has
    refine LruCache.Holds.insert ?_ ?_
    · intro entry member
      exact (inv.memory entry member).mono rfl (.refl _) stays
    · exact validEntry_single named chained (by simp)
  · intro short untouched
    exact update_of_ne (by simpa using untouched) _ _
  · intro short has
    simp only [update_apply]
    split
    · rfl
    · exact has

end

variable {world : AuthWorld} {starts : List Numbered}
  {chain : List ShortEventId}

theorem Gathered.of_cache {roomId : RoomId} {authChainCache : AuthCache}
    (inv : CacheInv ids world)
    (again : CacheInv ids { world with authChainCache })
    (names : Names world.numbers starts)
    (valid : ValidEntry world (starts.map Prod.fst) chain) :
    Gathered ids world roomId starts chain { world with authChainCache } where
  inv := again
  grows := ⟨rfl, .refl _, fun _ _ => rfl, fun _ has => has⟩
  chained := valid.chained inv.numbers names
  checked start member := .inr (valid.2 start.1 (mem_map_of_mem member))
  stored start member := valid.2 start.1 (mem_map_of_mem member)

theorem eventsOf_single (start : Numbered) : eventsOf [start] = {start.2} := by
  ext eventId
  simp [eventsOf, eq_comm]

theorem getAuthChainInner_meets (roomId : RoomId) (inv : CacheInv ids world)
    (eventId : EventId) :
    Meets
      (fun found after => ∃ numbers, after = { world with numbers } ∧
        CacheInv ids after ∧ world.numbers.Extends numbers ∧
        Chained world.pdus numbers {eventId} found ∧
        StaysIn world.pdus roomId {eventId})
      (fun error after => ∃ numbers, after = { world with numbers } ∧
        CacheInv ids after ∧ error = wrongRoom ∧
        Leaves world.pdus roomId eventId)
      (getAuthChainInner roomId eventId world) := by
  have begins : WalkInv ids world.pdus roomId eventId world.numbers
      { numbers := world.numbers, found := [], todo := [eventId] } := {
    extends_ := .refl _
    issues := inv.numbers
    nodup := nodup_nil
    sound := fun short member => by cases member
    waits := fun other member => ⟨eventId, rfl, by
      rw [mem_singleton.mp member]⟩
    expanded := fun other passed => by
      rcases passed with isStart | found
      · exact .inl (by simp [isStart])
      · obtain ⟨short, member, _⟩ := found
        cases member }
  have walks := walkLoop_meets (walkRounds world.pdus) inv.cited begins (by
    simp only [walkRounds, length_singleton, length_nil]
    omega)
  unfold getAuthChainInner
  cases result : walkLoop world.pdus roomId (walkRounds world.pdus)
      { numbers := world.numbers, found := [], todo := [eventId] } with
  | ok found numbers =>
      rw [result] at walks
      obtain ⟨⟨kept, issues⟩, chained, stays⟩ := walks
      exact ⟨numbers, rfl, inv.extends_ kept issues, kept, chained, stays⟩
  | error error numbers =>
      rw [result] at walks
      obtain ⟨⟨kept, issues⟩, wrong, leaves⟩ := walks
      exact ⟨numbers, rfl, inv.extends_ kept issues, wrong, leaves⟩

theorem getAuthChainOf_meets (roomId : RoomId) (start : Numbered)
    (world : AuthWorld) (inv : CacheInv ids world)
    (names : Names world.numbers [start]) :
    Meets (Gathered ids world roomId [start]) (Failed ids world roomId [start])
      (getAuthChainOf roomId start world) := by
  obtain ⟨found, authChainCache, looked, again, valid⟩ :=
    getCached_run inv [start.1]
  unfold getAuthChainOf
  rw [bind_of_ok _ looked]
  cases found with
  | some cached => exact .of_cache inv again names (valid cached rfl)
  | none =>
      have named := names start (mem_singleton_self start)
      have walks := getAuthChainInner_meets roomId again start.2
      simp only
      cases result : getAuthChainInner roomId start.2
          { world with authChainCache } with
      | error error after =>
          rw [result] at walks
          obtain ⟨numbers, rfl, kept, wrong, leaves⟩ := walks
          rw [bind_of_error _ result]
          exact ⟨kept, rfl, wrong, start, mem_singleton_self start, leaves⟩
      | ok found after =>
          rw [result] at walks
          obtain ⟨numbers, rfl, kept, extends_, chained, stays⟩ := walks
          obtain ⟨after, stores, keptAfter, grows, same, stored⟩ :=
            cache_single kept (extends_ _ _ named) chained
          rw [bind_of_ok _ result, bind_of_ok _ stores]
          refine ⟨keptAfter, ⟨grows.pdus, ?_, grows.kept, grows.stays⟩, ?_, ?_,
            ?_⟩
          · rw [same]
            exact extends_
          · rw [same, eventsOf_single]
            exact chained
          · intro other member
            rw [mem_singleton.mp member]
            exact .inl stays
          · intro other member
            rw [mem_singleton.mp member]
            exact stored

theorem mem_sortDedup {short : ShortEventId} :
    short ∈ sortDedup chain ↔ short ∈ chain := by
  simp [sortDedup, mem_insertionSort]

theorem Gathered.congr {roomId : RoomId} {after : AuthWorld}
    {other : List ShortEventId}
    (gathered : Gathered ids world roomId starts chain after)
    (same : ∀ short, short ∈ other ↔ short ∈ chain) :
    Gathered ids world roomId starts other after :=
  { gathered with chained := gathered.chained.congr same }

theorem CacheInv.remember {key : List ShortEventId} (inv : CacheInv ids world)
    (valid : ValidEntry world key chain) :
    CacheInv ids { world with
      authChainCache := world.authChainCache.insert key chain } :=
  ⟨inv.cited, inv.numbers, inv.stored, inv.memory.insert valid⟩

theorem Gathered.remember {roomId : RoomId} {middle : AuthWorld}
    {key entry : List ShortEventId}
    (gathered : Gathered ids world roomId starts chain middle)
    (valid : ValidEntry middle key entry) :
    Gathered ids world roomId starts chain { middle with
      authChainCache := middle.authChainCache.insert key entry } where
  inv := gathered.inv.remember valid
  grows := ⟨gathered.grows.pdus, gathered.grows.extends_, gathered.grows.kept,
    gathered.grows.stays⟩
  chained := gathered.chained
  checked := gathered.checked
  stored := gathered.stored

section

variable {roomId : RoomId} {world middle : AuthWorld} {starts : List Numbered}
  {chain : List ShortEventId}
  (gathered : Gathered ids world roomId starts chain middle)
  (names : Names world.numbers starts)
include gathered names

theorem Gathered.validEntry :
    ValidEntry middle (starts.map Prod.fst) chain := by
  refine ⟨⟨starts.map Prod.snd, ?_, ?_⟩, ?_⟩
  · rw [map_map, map_map]
    exact map_congr_left (fun start member =>
      gathered.grows.extends_ _ _ (names start member))
  · have equal : { eventId | eventId ∈ starts.map Prod.snd } =
        eventsOf starts := by
      ext eventId
      exact mem_map
    rw [gathered.grows.pdus, equal]
    exact gathered.chained
  · intro short member
    obtain ⟨start, listed, rfl⟩ := mem_map.mp member
    exact gathered.stored start listed

theorem Gathered.cache :
    ∃ after, cacheAuthChainVec (starts.map Prod.fst) chain middle =
      .ok () after ∧ Gathered ids world roomId starts chain after := by
  have valid := gathered.validEntry names
  match starts, gathered, names, valid with
  | [], gathered, names, valid =>
      exact ⟨_, rfl, gathered.remember valid⟩
  | [start], gathered, names, valid =>
      have named := gathered.grows.extends_ _ _
        (names start (mem_singleton_self start))
      have chained := gathered.chained
      rw [eventsOf_single, ← gathered.grows.pdus] at chained
      obtain ⟨after, stores, kept, grows, same, stored⟩ :=
        cache_single gathered.inv named chained
      refine ⟨after, stores, kept, ⟨grows.pdus.trans gathered.grows.pdus, ?_,
        ?_, ?_⟩, ?_, gathered.checked, ?_⟩
      · rw [same]
        exact gathered.grows.extends_
      · intro short untouched
        rw [grows.kept short untouched, gathered.grows.kept short untouched]
      · intro short has
        exact grows.stays short (gathered.grows.stays short has)
      · rw [same]
        exact gathered.chained
      · intro other member
        rw [mem_singleton.mp member]
        exact stored
  | first :: second :: rest, gathered, names, valid =>
      exact ⟨_, rfl, gathered.remember valid⟩

end

theorem getAuthChainOuter_meets (roomId : RoomId) (chunk : List Numbered)
    (world : AuthWorld) (inv : CacheInv ids world)
    (names : Names world.numbers chunk) :
    Meets (Gathered ids world roomId chunk) (Failed ids world roomId chunk)
      (getAuthChainOuter roomId chunk world) := by
  unfold getAuthChainOuter
  split
  next empty =>
    have none_ : chunk = [] := by simpa using empty
    subst none_
    exact gathered_nil roomId inv
  · obtain ⟨found, authChainCache, looked, again, valid⟩ :=
      getCached_run inv (chunk.map Prod.fst)
    rw [bind_of_ok _ looked]
    cases found with
    | some cached => exact .of_cache inv again names (valid cached rfl)
    | none =>
        have flat : chunk.flatMap (fun start => [start]) = chunk := by simp
        have collects := collectChains_meets (fun start => [start])
          (fun start world inv names =>
            getAuthChainOf_meets roomId start world inv names) chunk again
          (by rw [flat]; exact names)
        rw [flat] at collects
        simp only
        cases result : collectChains (getAuthChainOf roomId) chunk
            { world with authChainCache } with
        | error error after =>
            rw [result] at collects
            rw [bind_of_error _ result]
            exact ⟨collects.inv, collects.pdus, collects.wrong, collects.leaves⟩
        | ok chain after =>
            rw [result] at collects
            have sorted := Gathered.congr collects (fun short => mem_sortDedup)
            obtain ⟨final, stores, gathered⟩ := sorted.cache names
            rw [bind_of_ok _ result, bind_of_ok _ stores]
            exact ⟨gathered.inv, ⟨gathered.grows.pdus,
              gathered.grows.extends_, gathered.grows.kept,
              gathered.grows.stays⟩, gathered.chained, gathered.checked,
              gathered.stored⟩

end ArcanaServer.Rooms
