import ArcanaServer.Globals.Counter
import ArcanaServer.Library.HashOrder
import ArcanaServer.Library.LruCache
import ArcanaServer.Library.Stateful
import ArcanaServer.Matrix.Event
import Mathlib.Algebra.Group.Nat.Defs
import Mathlib.Data.List.Dedup
import Mathlib.Data.List.Sort
import Mathlib.Logic.Function.Basic

namespace ArcanaServer.Rooms

open Library ArcanaServer.Matrix Function

abbrev ShortId := Nat
abbrev ShortEventId := ShortId
abbrev ShortStateKey := ShortId
abbrev ShortStateHash := ShortId

/-- The tables of the short service and the counter of the globals service,
from which every short id is drawn. -/
structure Short (Digest : Type) where
  counter : Nat
  eventidShorteventid : EventId → Option ShortEventId
  shorteventidEventid : ShortEventId → Option EventId
  statekeyShortstatekey : TypeStateKey → Option ShortStateKey
  shortstatekeyStatekey : ShortStateKey → Option TypeStateKey
  statehashShortstatehash : Digest → Option ShortStateHash

namespace Short

variable {Digest : Type} [DecidableEq Digest]

def empty : Short Digest where
  counter := 0
  eventidShorteventid := fun _ => none
  shorteventidEventid := fun _ => none
  statekeyShortstatekey := fun _ => none
  shortstatekeyStatekey := fun _ => none
  statehashShortstatehash := fun _ => none

variable (short : Short Digest)

def nextCount : ShortId × Short Digest :=
  let counter := nextCounter short.counter
  (counter, { short with counter })

def createShorteventid (eventId : EventId) : ShortEventId × Short Digest :=
  let (fresh, short) := short.nextCount
  (fresh, { short with
    eventidShorteventid :=
      update short.eventidShorteventid eventId (some fresh)
    shorteventidEventid :=
      update short.shorteventidEventid fresh (some eventId) })

def getOrCreateShorteventid (eventId : EventId) : ShortEventId × Short Digest :=
  match short.eventidShorteventid eventId with
  | some shorteventid => (shorteventid, short)
  | none => short.createShorteventid eventId

def getOrCreateShortstatekey (key : TypeStateKey) :
    ShortStateKey × Short Digest :=
  match short.statekeyShortstatekey key with
  | some shortstatekey => (shortstatekey, short)
  | none =>
      let (fresh, short) := short.nextCount
      (fresh, { short with
        statekeyShortstatekey :=
          update short.statekeyShortstatekey key (some fresh)
        shortstatekeyStatekey :=
          update short.shortstatekeyStatekey fresh (some key) })

def getOrCreateShortstatehash (stateHash : Digest) :
    (ShortStateHash × Bool) × Short Digest :=
  match short.statehashShortstatehash stateHash with
  | some shortstatehash => ((shortstatehash, true), short)
  | none =>
      let (fresh, short) := short.nextCount
      ((fresh, false), { short with
        statehashShortstatehash :=
          update short.statehashShortstatehash stateHash
            (some fresh) })

/-- `after` may have issued more ids than `before`, but no state hash. -/
structure Extends (before after : Short Digest) : Prop where
  counter : before.counter ≤ after.counter
  rows : after.statehashShortstatehash = before.statehashShortstatehash
  positive :
    (∀ key short, before.statekeyShortstatekey key = some short → 0 < short) →
    ∀ key short, after.statekeyShortstatekey key = some short → 0 < short

section

omit [DecidableEq Digest]

variable (short : Short Digest)

theorem Extends.refl : Extends short short :=
  ⟨Nat.le_refl _, rfl, id⟩

theorem nextCount_le : short.counter ≤ short.nextCount.2.counter :=
  le_nextCounter _

theorem nextCount_positive : 0 < short.nextCount.1 := by
  simp only [nextCount, nextCounter]
  split
  · exact Nat.succ_pos _
  · rename_i exhausted
    have positive : 0 < u64Max := by decide
    exact Nat.lt_of_lt_of_le positive
      (Nat.le_of_lt_succ (Nat.lt_of_not_le exhausted))

theorem nextCount_of_lt {short : Short Digest} (fits : short.counter < u64Max) :
    short.nextCount =
      (short.counter + 1, { short with counter := short.counter + 1 }) := by
  simp only [nextCount, nextCounter_of_lt fits]

theorem getOrCreateShorteventid_extends (eventId : EventId) :
    Extends short (short.getOrCreateShorteventid eventId).2 := by
  unfold getOrCreateShorteventid
  split
  · exact Extends.refl short
  · exact ⟨nextCount_le short, rfl, id⟩

theorem getOrCreateShortstatekey_extends (key : TypeStateKey) :
    Extends short (short.getOrCreateShortstatekey key).2 := by
  unfold getOrCreateShortstatekey
  split
  · exact Extends.refl short
  · refine ⟨nextCount_le short, rfl, ?_⟩
    intro positive other known found
    rcases update_eq_some found with old | new
    · exact positive other known old
    · rw [new.2]
      exact nextCount_positive short

theorem getOrCreateShortstatekey_positive {short : Short Digest}
    (positive : ∀ key short',
      short.statekeyShortstatekey key = some short' → 0 < short')
    (key : TypeStateKey) : 0 < (short.getOrCreateShortstatekey key).1 := by
  unfold getOrCreateShortstatekey
  split
  · rename_i known found
    exact positive key known found
  · exact nextCount_positive short

end

end Short

/-! Auth chains.  The chain of a single event is kept in the database and in
memory, that of a bucket of events in memory only. -/

inductive AuthChainError where
  | forbidden (message : String)
  | unfinished
  deriving DecidableEq, Repr

/-- The short ids of events.  The counter stands for every draw of a short
id. -/
structure EventNumbers where
  counter : Nat
  eventidShorteventid : EventId → Option ShortEventId

def EventNumbers.getOrCreate (numbers : EventNumbers) (eventId : EventId) :
    ShortEventId × EventNumbers :=
  match numbers.eventidShorteventid eventId with
  | some short => (short, numbers)
  | none =>
      let counter := nextCounter numbers.counter
      (counter, {
        counter
        eventidShorteventid := update numbers.eventidShorteventid
          eventId (some counter) })

abbrev AuthCache := LruCache (List ShortEventId) (List ShortEventId)

/-- The stored PDUs, outliers too, and the caches. -/
structure AuthWorld where
  pdus : List Pdu
  numbers : EventNumbers
  shorteventidAuthchain : ShortEventId → Option (List ShortEventId)
  authChainCache : AuthCache

abbrev AuthM := EStateM AuthChainError AuthWorld

def getPdu (pdus : List Pdu) (eventId : EventId) : Option Pdu :=
  pdus.find? (fun pdu => pdu.eventId == eventId)

structure Walk where
  numbers : EventNumbers
  found : List ShortEventId
  todo : List EventId

def Walk.addAuthEvent (walk : Walk) (authEvent : EventId) : Walk :=
  let (short, numbers) := walk.numbers.getOrCreate authEvent
  if short ∈ walk.found then { walk with numbers }
  else {
    numbers
    found := walk.found ++ [short]
    todo := walk.todo ++ [authEvent] }

variable (roomId : RoomId)

def inOtherRoom (pdu : Pdu) : Bool :=
  pdu.roomId.any (fun claimed => claimed != roomId)

/-- A PDU that is not there is passed over. -/
def walkLoop (pdus : List Pdu) (roomId : RoomId) :
    Nat → Walk → EStateM.Result AuthChainError EventNumbers (List ShortEventId)
  | rounds, walk =>
      match walk.todo with
      | [] => .ok walk.found walk.numbers
      | eventId :: todo =>
          match rounds with
          | 0 => .error .unfinished walk.numbers
          | rounds + 1 =>
              match getPdu pdus eventId with
              | none => walkLoop pdus roomId rounds { walk with todo }
              | some pdu =>
                  if inOtherRoom roomId pdu then
                    .error (.forbidden "auth event for incorrect room")
                      walk.numbers
                  else
                    walkLoop pdus roomId rounds
                      (pdu.authEvents.foldl Walk.addAuthEvent
                        { walk with todo })

def walkRounds (pdus : List Pdu) : Nat :=
  (pdus.flatMap Pdu.authEvents).length + 1

def getAuthChainInner (eventId : EventId) :
    AuthM (List ShortEventId) := fun world =>
  match walkLoop world.pdus roomId (walkRounds world.pdus)
    { numbers := world.numbers, found := [], todo := [eventId] } with
  | .ok found numbers => .ok found { world with numbers }
  | .error error numbers => .error error { world with numbers }

def getCachedEventidAuthchain (key : List ShortEventId) :
    AuthM (Option (List ShortEventId)) := fun world =>
  match world.authChainCache.getMut key with
  | (some chain, authChainCache) =>
      .ok (some chain) { world with authChainCache }
  | (none, authChainCache) =>
      match key with
      | [short] =>
          match world.shorteventidAuthchain short with
          | some chain =>
              .ok (some chain) { world with
                authChainCache := authChainCache.insert [short] chain }
          | none => .ok none { world with authChainCache }
      | _ => .ok none { world with authChainCache }

def cacheAuthChainVec (key chain : List ShortEventId) : AuthM Unit :=
  modify (fun world => { world with
    shorteventidAuthchain :=
      match key with
      | [short] =>
          update world.shorteventidAuthchain short (some chain)
      | _ => world.shorteventidAuthchain
    authChainCache := world.authChainCache.insert key chain })

/-! The calls.  The starting events are kept in order; the source may treat
buckets and events side by side. -/

abbrev Numbered := ShortEventId × EventId

def sortDedup (chain : List ShortEventId) : List ShortEventId :=
  chain.dedup.insertionSort (· ≤ ·)

def getAuthChainOf (start : Numbered) : AuthM (List ShortEventId) := do
  match ← getCachedEventidAuthchain [start.1] with
  | some cached => pure cached
  | none =>
      let authChain ← getAuthChainInner roomId start.2
      cacheAuthChainVec [start.1] authChain
      pure authChain

def addChain {τ : Type} (action : τ → AuthM (List ShortEventId))
    (chain : List ShortEventId) (item : τ) : AuthM (List ShortEventId) := do
  let more ← action item
  pure (chain ++ more)

def collectChains {τ : Type} (action : τ → AuthM (List ShortEventId))
    (items : List τ) : AuthM (List ShortEventId) :=
  items.foldlM (addChain action) []

def getAuthChainOuter (chunk : List Numbered) : AuthM (List ShortEventId) := do
  let chunkKey := chunk.map Prod.fst
  if chunkKey.isEmpty then pure []
  else
    match ← getCachedEventidAuthchain chunkKey with
    | some cached => pure cached
    | none =>
        let chunkCache ← collectChains (getAuthChainOf roomId) chunk
        cacheAuthChainVec chunkKey (sortDedup chunkCache)
        pure (sortDedup chunkCache)

def numBuckets : Nat := 50

def bucket (starts : List Numbered) (index : Nat) : List Numbered :=
  (starts.filter (fun start => start.1 % numBuckets == index)).dedup
    |>.insertionSort (fun left right => left.1 ≤ right.1)

def numberStart (starts : List Numbered) (eventId : EventId) :
    AuthM (List Numbered) := fun world =>
  let (short, numbers) := world.numbers.getOrCreate eventId
  .ok (starts ++ [(short, eventId)]) { world with numbers }

def getAuthChain (startingEvents : List EventId) :
    AuthM (List ShortEventId) := do
  let starts ← startingEvents.foldlM numberStart []
  let chain ← collectChains
    (fun index => getAuthChainOuter roomId (bucket starts index))
    (List.range numBuckets)
  pure (sortDedup chain)

end ArcanaServer.Rooms
