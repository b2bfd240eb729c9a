import ArcanaServer.Database.Bytes
import ArcanaServer.Library.LayeredDiff
import Mathlib.Data.Finset.Sort
import Mathlib.Data.Prod.Lex

namespace ArcanaServer.Rooms

open Library List

inductive Failure where
  | arithmetic
  | missingStateDiff (shortstatehash : ShortStateHash)
  | panic (message : String)
  | diverges
  deriving DecidableEq, Repr

/-- Sixteen bytes, of which the first eight are the short state key, in the
order of the bytes. -/
abbrev CompressedStateEvent := ShortStateKey ×ₗ ShortEventId

instance compressed_trans :
    IsTrans CompressedStateEvent (fun first second => first ≤ second) :=
  inferInstance

instance compressed_antisymm :
    Std.Antisymm (fun first second : CompressedStateEvent => first ≤ second) :=
  inferInstance

instance compressed_total :
    Std.Total (fun first second : CompressedStateEvent => first ≤ second) :=
  inferInstance

abbrev CompressedState := Finset CompressedStateEvent

def compressStateEvent (shortstatekey : ShortStateKey)
    (shorteventid : ShortEventId) : CompressedStateEvent :=
  toLex (shortstatekey, shorteventid)

def parseCompressedStateEvent (event : CompressedStateEvent) :
    ShortStateKey × ShortEventId :=
  ofLex event

structure StateDiff extends Diff CompressedStateEvent where
  parent : Option ShortStateHash

structure ShortStateInfo extends Diff CompressedStateEvent where
  shortstatehash : ShortStateHash
  fullState : CompressedState

structure HashSetCompressStateEvent extends Diff CompressedStateEvent where
  shortstatehash : ShortStateHash

def encodeEvents (events : CompressedState) : List Nat :=
  events.sort.flatMap (fun event =>
    [(parseCompressedStateEvent event).1, (parseCompressedStateEvent event).2])

/-- The value that `save_statediff` stores.  A zero in the place of a state key
separates what is added from what is removed. -/
def encodeStatediff (diff : StateDiff) : List Nat :=
  diff.parent.getD 0 :: (encodeEvents diff.added ++
    if diff.removed = ∅ then [] else 0 :: encodeEvents diff.removed)

def decodeEvents : Bool → Diff CompressedStateEvent → List Nat →
    Diff CompressedStateEvent
  | addMode, diff, first :: second :: rest =>
      if addMode ∧ first = 0 then decodeEvents false diff (second :: rest)
      else if addMode then
        decodeEvents addMode { diff with
          added := insert (compressStateEvent first second) diff.added } rest
      else
        decodeEvents addMode { diff with
          removed := insert (compressStateEvent first second) diff.removed }
          rest
  | _, diff, _ => diff

def decodeStatediff : List Nat → Except Failure StateDiff
  | [] => .error (.panic "range end index 8 out of range")
  | first :: rest =>
      let diff := decodeEvents true { added := ∅, removed := ∅ } rest
      .ok { diff with parent := if first ≠ 0 then some first else none }

/-! The table of diffs, and the stacks of layers loaded from it.  The top of a
stack, the last frame of the source's vector, is the head of the list. -/

structure StateCompressor where
  shortstatehashStatediff : ShortStateHash → Option (List Nat)
  stateinfoCache : LruCache ShortStateHash (List ShortStateInfo)

namespace StateCompressor

def empty (cacheCapacity : Nat) : StateCompressor where
  shortstatehashStatediff := fun _ => none
  stateinfoCache := { capacity := cacheCapacity, entries := [] }

def saveStatediff (compressor : StateCompressor)
    (shortstatehash : ShortStateHash) (diff : StateDiff) : StateCompressor :=
  { compressor with
    shortstatehashStatediff :=
      Function.update compressor.shortstatehashStatediff shortstatehash
        (some (encodeStatediff diff)) }

def getStatediff (compressor : StateCompressor)
    (shortstatehash : ShortStateHash) : Except Failure StateDiff :=
  match compressor.shortstatehashStatediff shortstatehash with
  | some value => decodeStatediff value
  | none => .error (.missingStateDiff shortstatehash)

def layerOn (top : ShortStateInfo) (shortstatehash : ShortStateHash)
    (diff : StateDiff) : ShortStateInfo :=
  { diff with
    shortstatehash
    fullState := (top.fullState ∪ diff.added) \ diff.removed }

def newShortstatehashInfo (load : StateCompressor → ShortStateHash →
      Except Failure (List ShortStateInfo) × StateCompressor)
    (compressor : StateCompressor) (shortstatehash : ShortStateHash) :
    Except Failure (List ShortStateInfo) × StateCompressor :=
  match compressor.getStatediff shortstatehash with
  | .error failure => (.error failure, compressor)
  | .ok diff =>
      match diff.parent with
      | none =>
          (.ok [{ diff with shortstatehash, fullState := diff.added }],
            compressor)
      | some parent =>
          match load compressor parent with
          | (.error failure, compressor) => (.error failure, compressor)
          | (.ok [], compressor) =>
              (.error (.panic "at least one frame"), compressor)
          | (.ok (top :: below), compressor) =>
              (.ok (layerOn top shortstatehash diff :: top :: below),
                compressor)

def loadWithin : Nat → StateCompressor → ShortStateHash →
    Except Failure (List ShortStateInfo) × StateCompressor
  | 0, compressor, _ => (.error .diverges, compressor)
  | depth + 1, compressor, shortstatehash =>
      match compressor.stateinfoCache.getMut shortstatehash with
      | (some stack, stateinfoCache) =>
          (.ok stack, { compressor with stateinfoCache })
      | (none, _) =>
          match newShortstatehashInfo (loadWithin depth) compressor
              shortstatehash with
          | (.error failure, compressor) => (.error failure, compressor)
          | (.ok stack, compressor) =>
              (.ok stack, { compressor with
                stateinfoCache :=
                  compressor.stateinfoCache.insert shortstatehash stack })

/-- A parent is an older, smaller hash, which bounds the depth of the
recursion. -/
def loadShortstatehashInfo (compressor : StateCompressor)
    (shortstatehash : ShortStateHash) :
    Except Failure (List ShortStateInfo) × StateCompressor :=
  loadWithin (shortstatehash + 1) compressor shortstatehash

def checkedAdd (left right : Nat) : Except Failure Nat :=
  if left + right ≤ u64Max then .ok (left + right) else .error .arithmetic

def checkedMul (left right : Nat) : Except Failure Nat :=
  if left * right ≤ u64Max then .ok (left * right) else .error .arithmetic

def removeFromParent (parent : Diff CompressedStateEvent)
    (removed : CompressedStateEvent) : Diff CompressedStateEvent :=
  if removed ∈ parent.added then
    { parent with added := parent.added.erase removed }
  else { parent with removed := insert removed parent.removed }

def addToParent (parent : Diff CompressedStateEvent)
    (new : CompressedStateEvent) : Diff CompressedStateEvent :=
  if new ∈ parent.removed then
    { parent with removed := parent.removed.erase new }
  else { parent with added := insert new parent.added }

def foldIntoParent (parent diff : Diff CompressedStateEvent) :
    Diff CompressedStateEvent :=
  diff.added.sort.foldl addToParent
    (diff.removed.sort.foldl removeFromParent parent)

def saveStateFromDiff (compressor : StateCompressor)
    (shortstatehash : ShortStateHash) (diff : Diff CompressedStateEvent)
    (diffToSibling : Nat) :
    List ShortStateInfo → Except Failure StateCompressor
  | [] => do
      let _ ← checkedAdd diff.added.card diff.removed.card
      return compressor.saveStatediff shortstatehash
        { diff with parent := none }
  | parent :: parentStates => do
      let diffsum ← checkedAdd diff.added.card diff.removed.card
      if (parent :: parentStates).length > 3 then
        saveStateFromDiff compressor shortstatehash
          (foldIntoParent parent.toDiff diff) diffsum parentStates
      else
        let parentDiff ← checkedAdd parent.added.card parent.removed.card
        let square ← checkedMul diffsum diffsum
        let doubled ← checkedMul 2 diffToSibling
        let limit ← checkedMul doubled parentDiff
        if square ≥ limit then
          saveStateFromDiff compressor shortstatehash
            (foldIntoParent parent.toDiff diff) diffsum parentStates
        else
          return compressor.saveStatediff shortstatehash
            { diff with parent := some parent.shortstatehash }

def diffTo (statesParents : List ShortStateInfo) (state : CompressedState) :
    Diff CompressedStateEvent :=
  match statesParents with
  | [] => { added := state, removed := ∅ }
  | parent :: _ =>
      { added := state \ parent.fullState
        removed := parent.fullState \ state }

end StateCompressor

/-- No event is stored under the state key zero, which marks the end of what a
diff adds. -/
def Keyed (state : CompressedState) : Prop :=
  ∀ event ∈ state, (parseCompressedStateEvent event).1 ≠ 0

theorem decodeEvents_added (events : List CompressedStateEvent)
    (rest : List Nat) :
    ∀ diff : Diff CompressedStateEvent,
      (∀ event ∈ events, (parseCompressedStateEvent event).1 ≠ 0) →
      decodeEvents true diff
          (events.flatMap (fun event => [(parseCompressedStateEvent event).1,
            (parseCompressedStateEvent event).2]) ++ rest) =
        decodeEvents true
          { diff with added := events.toFinset ∪ diff.added } rest := by
  induction events with
  | nil =>
      intro diff _
      simp
  | cons event events ih =>
      intro diff keyed
      have nonzero := keyed event mem_cons_self
      have same : compressStateEvent (parseCompressedStateEvent event).1
          (parseCompressedStateEvent event).2 = event := rfl
      simp only [flatMap_cons, cons_append, nil_append,
        decodeEvents, true_and, nonzero, if_false, if_true, same]
      rw [ih _ (fun other member => keyed other (mem_cons_of_mem _ member))]
      congr 2
      rw [toFinset_cons, Finset.insert_union, Finset.union_insert]

theorem decodeEvents_zero (diff : Diff CompressedStateEvent) (second : Nat)
    (rest : List Nat) :
    decodeEvents true diff (0 :: second :: rest) =
      decodeEvents false diff (second :: rest) := by
  rw [decodeEvents, if_pos ⟨rfl, rfl⟩]

theorem decodeEvents_removed (events : List CompressedStateEvent) :
    ∀ diff : Diff CompressedStateEvent, decodeEvents false diff
          (events.flatMap (fun event => [(parseCompressedStateEvent event).1,
            (parseCompressedStateEvent event).2])) =
        { diff with removed := events.toFinset ∪ diff.removed } := by
  induction events with
  | nil =>
      intro diff
      simp [decodeEvents]
  | cons event events ih =>
      intro diff
      have same : compressStateEvent (parseCompressedStateEvent event).1
          (parseCompressedStateEvent event).2 = event := rfl
      simp only [flatMap_cons, cons_append, nil_append,
        decodeEvents, Bool.false_eq_true, false_and, if_false, same]
      rw [ih]
      congr 1
      rw [toFinset_cons, Finset.insert_union, Finset.union_insert]

theorem encodeEvents_ne_nil {events : CompressedState} (some : events ≠ ∅) :
    ∃ first second rest, encodeEvents events = first :: second :: rest := by
  unfold encodeEvents
  cases sorted : events.sort with
  | nil =>
      have : events = ∅ := by
        rw [← events.sort_toFinset (· ≤ ·), sorted]
        rfl
      exact absurd this some
  | cons event rest => exact ⟨_, _, _, rfl⟩

theorem decodeStatediff_encodeStatediff {diff : StateDiff}
    (keyed : Keyed diff.added) (parent : diff.parent ≠ some 0) :
    decodeStatediff (encodeStatediff diff) = .ok diff := by
  have parentEq : (if diff.parent.getD 0 ≠ 0 then some (diff.parent.getD 0)
      else none) = diff.parent := by
    cases found : diff.parent with
    | none => rfl
    | some hash =>
        rw [found] at parent
        simp only [Option.getD_some]
        rw [if_pos (fun zero => parent (congrArg some zero))]
  have events : decodeEvents true { added := ∅, removed := ∅ }
      (encodeEvents diff.added ++ if diff.removed = ∅ then []
        else 0 :: encodeEvents diff.removed) = diff.toDiff := by
    rw [encodeEvents, decodeEvents_added _ _ _ (by
      intro event member
      exact keyed event ((Finset.mem_sort _).mp member))]
    rw [Finset.sort_toFinset, Finset.union_empty]
    rcases Decidable.em (diff.removed = ∅) with none | some
    · rw [if_pos none, decodeEvents, ← none]
      simp
    · obtain ⟨first, second, rest, encoded⟩ := encodeEvents_ne_nil some
      rw [if_neg some, encoded, decodeEvents_zero, ← encoded, encodeEvents,
        decodeEvents_removed,
        Finset.sort_toFinset, Finset.union_empty]
  unfold decodeStatediff encodeStatediff
  simp only [events, parentEq]

namespace StateCompressor

theorem removeFromParent_foldl (removed : List CompressedStateEvent)
    (nodup : removed.Nodup) (parent : Diff CompressedStateEvent) :
    removed.foldl removeFromParent parent =
      { added := parent.added \ removed.toFinset
        removed := parent.removed ∪ (removed.toFinset \ parent.added) } := by
  induction removed generalizing parent with
  | nil => simp
  | cons event events ih =>
      obtain ⟨fresh, rest⟩ := nodup_cons.mp nodup
      have outside : event ∉ events.toFinset := by simpa using fresh
      rw [foldl_cons, ih rest, toFinset_cons]
      unfold removeFromParent
      split
      · rename_i known
        congr 1
        · ext other
          simp only [Finset.mem_sdiff, Finset.mem_erase, Finset.mem_insert]
          tauto
        · ext other
          simp only [Finset.mem_union, Finset.mem_sdiff, Finset.mem_erase,
            Finset.mem_insert]
          grind
      · rename_i unknown
        congr 1
        · ext other
          simp only [Finset.mem_sdiff, Finset.mem_insert]
          grind
        · ext other
          simp only [Finset.mem_union, Finset.mem_sdiff, Finset.mem_insert]
          grind

theorem addToParent_foldl (added : List CompressedStateEvent)
    (nodup : added.Nodup) (parent : Diff CompressedStateEvent) :
    added.foldl addToParent parent =
      { added := parent.added ∪ (added.toFinset \ parent.removed)
        removed := parent.removed \ added.toFinset } := by
  induction added generalizing parent with
  | nil => simp
  | cons event events ih =>
      obtain ⟨fresh, rest⟩ := nodup_cons.mp nodup
      have outside : event ∉ events.toFinset := by simpa using fresh
      rw [foldl_cons, ih rest, toFinset_cons]
      unfold addToParent
      split
      · rename_i known
        congr 1
        · ext other
          simp only [Finset.mem_union, Finset.mem_sdiff, Finset.mem_erase,
            Finset.mem_insert]
          grind
        · ext other
          simp only [Finset.mem_sdiff, Finset.mem_erase, Finset.mem_insert]
          tauto
      · rename_i unknown
        congr 1
        · ext other
          simp only [Finset.mem_union, Finset.mem_sdiff, Finset.mem_insert]
          grind
        · ext other
          simp only [Finset.mem_sdiff, Finset.mem_insert]
          grind

/-- The two loops compute the composition of the two differences. -/
theorem foldIntoParent_eq_squash (parent diff : Diff CompressedStateEvent) :
    foldIntoParent parent diff = parent.squash diff := by
  unfold foldIntoParent
  rw [removeFromParent_foldl _ (Finset.sort_nodup _ _),
    addToParent_foldl _ (Finset.sort_nodup _ _), Finset.sort_toFinset,
    Finset.sort_toFinset]
  rfl

end StateCompressor

section

open Database
open Sending (toBeBytes bigEndian bigEndian_length)

def eventBytes (event : CompressedStateEvent) : Key :=
  toBeBytes (parseCompressedStateEvent event).1 ++
    toBeBytes (parseCompressedStateEvent event).2

def eventFromBytes (bytes : Key) : CompressedStateEvent :=
  compressStateEvent (fromBigEndian (bytes.take 8))
    (fromBigEndian (bytes.drop 8))

def statediffBytes (diff : StateDiff) : Key := toBeBytes (diff.parent.getD 0) ++
    (diff.added.sort.flatMap eventBytes ++
      if diff.removed = ∅ then []
      else toBeBytes 0 ++ diff.removed.sort.flatMap eventBytes)

/-- The loop of `get_statediff`; `value` is what lies behind `i`. -/
def eventsFromBytes (addMode : Bool) (diff : Diff CompressedStateEvent)
    (value : Key) : Diff CompressedStateEvent :=
  if value.length < 16 then diff
  else if addMode ∧ (toBeBytes 0).isPrefixOf (value.take 16) then
    eventsFromBytes false diff (value.drop 8)
  else if addMode then
    eventsFromBytes addMode { diff with
      added := insert (eventFromBytes (value.take 16)) diff.added }
      (value.drop 16)
  else
    eventsFromBytes addMode { diff with
      removed := insert (eventFromBytes (value.take 16)) diff.removed }
      (value.drop 16)
termination_by value.length
decreasing_by all_goals rw [List.length_drop]; omega

def statediffFromBytes (value : Key) : Except Failure StateDiff :=
  if value.length < 8 then
    .error (.panic "range end index 8 out of range")
  else
    let parent := fromBigEndian (value.take 8)
    let diff := eventsFromBytes true { added := ∅, removed := ∅ }
      (value.drop 8)
    .ok { diff with parent := if parent ≠ 0 then some parent else none }

/-- What `save_statediff` writes into the table. -/
def putStatediff (table : ShortStateHash → Option Key)
    (shortstatehash : ShortStateHash) (diff : StateDiff) :
    ShortStateHash → Option Key :=
  Function.update table shortstatehash (some (statediffBytes diff))

/-- What `get_statediff` reads from it. -/
def readStatediff (table : ShortStateHash → Option Key)
    (shortstatehash : ShortStateHash) : Except Failure StateDiff :=
  match table shortstatehash with
  | none => .error (.missingStateDiff shortstatehash)
  | some value => statediffFromBytes value

/-- The short ids of the diff are words. -/
structure StateDiff.Fits (diff : StateDiff) : Prop where
  parent : ∀ hash, diff.parent = some hash → hash < 2 ^ 64
  events : ∀ event, event ∈ diff.added ∨ event ∈ diff.removed →
    (parseCompressedStateEvent event).1 < 2 ^ 64 ∧
      (parseCompressedStateEvent event).2 < 2 ^ 64

theorem toBeBytes_length (word : Nat) : (toBeBytes word).length = 8 :=
  bigEndian_length 8 word

theorem fromBigEndian_toBeBytes {word : Nat} (below : word < 2 ^ 64) :
    fromBigEndian (toBeBytes word) = word :=
  @fromBigEndian_bigEndian 8 word (by simpa using below)

theorem toBeBytes_isPrefixOf_iff {word : Nat} (below : word < 2 ^ 64)
    (rest : Key) :
    (toBeBytes 0).isPrefixOf (toBeBytes word ++ rest) = true ↔ word = 0 := by
  rw [ isPrefixOf_iff_prefix]
  constructor
  · rintro ⟨behind, same⟩
    have zero := (append_inj same (by simp only [toBeBytes_length])).1
    exact (Sending.toBeBytes_inj (by decide) below zero).symm
  · rintro rfl
    exact prefix_append _ _

theorem eventsFromBytes_pair {first second : Nat} (addMode : Bool)
    (diff : Diff CompressedStateEvent) (rest : Key)
    (firstBelow : first < 2 ^ 64) (secondBelow : second < 2 ^ 64) :
    eventsFromBytes addMode diff
        (toBeBytes first ++ (toBeBytes second ++ rest)) =
      if addMode ∧ first = 0 then
        eventsFromBytes false diff (toBeBytes second ++ rest)
      else if addMode then
        eventsFromBytes addMode { diff with
          added := insert (compressStateEvent first second) diff.added } rest
      else
        eventsFromBytes addMode { diff with
          removed := insert (compressStateEvent first second) diff.removed }
          rest := by
  have long : ¬ (toBeBytes first ++ (toBeBytes second ++ rest)).length < 16 := by
    simp only [length_append, toBeBytes_length]
    omega
  have both : (toBeBytes first ++ toBeBytes second).length = 16 := by
    simp only [length_append, toBeBytes_length]
  have front : (toBeBytes first ++ (toBeBytes second ++ rest)).take 16 =
      toBeBytes first ++ toBeBytes second := by
    rw [← append_assoc]
    exact take_left' both
  have behind : (toBeBytes first ++ (toBeBytes second ++ rest)).drop 16 =
      rest := by
    rw [← append_assoc]
    exact drop_left' both
  have read : eventFromBytes (toBeBytes first ++ toBeBytes second) =
      compressStateEvent first second := by
    unfold eventFromBytes
    rw [take_left' (toBeBytes_length first),
      drop_left' (toBeBytes_length first),
      fromBigEndian_toBeBytes firstBelow, fromBigEndian_toBeBytes secondBelow]
  rw [eventsFromBytes, if_neg long, front, behind, read,
    drop_left' (toBeBytes_length first)]
  simp only [toBeBytes_isPrefixOf_iff firstBelow]

/-- The loop over the bytes is the one over their words. -/
theorem eventsFromBytes_words (addMode : Bool)
    (diff : Diff CompressedStateEvent) (words : List Nat)
    (fits : ∀ word ∈ words, word < 2 ^ 64) :
    eventsFromBytes addMode diff (words.flatMap toBeBytes) =
      decodeEvents addMode diff words := by
  have pair {first second : Nat} {rest : List Nat} (addMode : Bool)
      (diff : Diff CompressedStateEvent)
      (fits : ∀ word ∈ first :: second :: rest, word < 2 ^ 64) :=
    eventsFromBytes_pair addMode diff (rest.flatMap toBeBytes)
      (fits first mem_cons_self)
      (fits second (mem_cons_of_mem _ mem_cons_self))
  induction addMode, diff, words using decodeEvents.induct with
  | case1 addMode diff first second rest marked ih =>
      rw [decodeEvents, if_pos marked,
        ← ih fun word member => fits word (mem_cons_of_mem _ member)]
      simp only [flatMap_cons]
      rw [pair addMode diff fits, if_pos marked]
  | case2 diff first second rest unmarked ih =>
      have behind : ∀ word ∈ rest, word < 2 ^ 64 := fun word member =>
        fits word (mem_cons_of_mem _ (mem_cons_of_mem _ member))
      rw [decodeEvents, if_neg unmarked, if_pos rfl, ← ih behind]
      simp only [flatMap_cons]
      rw [pair true diff fits, if_neg unmarked, if_pos rfl]
  | case3 addMode diff first second rest unmarked removing ih =>
      have behind : ∀ word ∈ rest, word < 2 ^ 64 := fun word member =>
        fits word (mem_cons_of_mem _ (mem_cons_of_mem _ member))
      rw [decodeEvents, if_neg unmarked, if_neg removing, ← ih behind]
      simp only [flatMap_cons]
      rw [pair addMode diff fits, if_neg unmarked, if_neg removing]
  | case4 words addMode diff short =>
      have stops (value : Key) (few : value.length < 16) :
          eventsFromBytes addMode diff value = diff := by
        rw [eventsFromBytes, if_pos few]
      cases words with
      | nil => exact stops [] (by decide)
      | cons word rest =>
          cases rest with
          | nil =>
              refine stops _ ?_
              rw [flatMap_cons, flatMap_nil, append_nil, toBeBytes_length]
              decide
          | cons next rest => exact absurd rfl (short word next rest)

theorem flatMap_eventBytes (events : List CompressedStateEvent) :
    events.flatMap eventBytes = (events.flatMap (fun event =>
      [(parseCompressedStateEvent event).1,
        (parseCompressedStateEvent event).2])).flatMap toBeBytes := by
  rw [flatMap_assoc]
  refine flatMap_congr fun event _ => ?_
  simp only [flatMap_cons, flatMap_nil, append_nil]
  rfl

theorem statediffBytes_words (diff : StateDiff) :
    statediffBytes diff = (encodeStatediff diff).flatMap toBeBytes := by
  unfold statediffBytes encodeStatediff encodeEvents
  rw [flatMap_cons, flatMap_append, flatMap_eventBytes, flatMap_eventBytes]
  split
  · rfl
  · rw [flatMap_cons]

theorem encodeStatediff_fits {diff : StateDiff} (fits : diff.Fits) :
    ∀ word ∈ encodeStatediff diff, word < 2 ^ 64 := by
  have events {state : CompressedState} (inside : ∀ event ∈ state,
      event ∈ diff.added ∨ event ∈ diff.removed) :
      ∀ word ∈ encodeEvents state, word < 2 ^ 64 := by
    intro word member
    obtain ⟨event, stored, part⟩ := mem_flatMap.mp member
    obtain ⟨key, id⟩ := fits.events event
      (inside event ((Finset.mem_sort _).mp stored))
    simp only [mem_cons, not_mem_nil, or_false] at part
    rcases part with rfl | rfl
    · exact key
    · exact id
  unfold encodeStatediff
  intro word member
  rcases mem_cons.mp member with rfl | member
  · cases found : diff.parent with
    | none => decide
    | some hash => exact fits.parent hash found
  · rcases mem_append.mp member with added | behind
    · exact events (fun _ => .inl) word added
    · split at behind
      · cases behind
      · rcases mem_cons.mp behind with rfl | removed
        · decide
        · exact events (fun _ => .inr) word removed

theorem statediffFromBytes_words {words : List Nat}
    (fits : ∀ word ∈ words, word < 2 ^ 64) :
    statediffFromBytes (words.flatMap toBeBytes) = decodeStatediff words := by
  cases words with
  | nil => rfl
  | cons first rest =>
      rw [flatMap_cons]
      have long : ¬ (toBeBytes first ++ rest.flatMap toBeBytes).length < 8 := by
        rw [length_append, toBeBytes_length]
        omega
      unfold statediffFromBytes decodeStatediff
      rw [if_neg long, take_left' (toBeBytes_length first),
        drop_left' (toBeBytes_length first),
        fromBigEndian_toBeBytes (fits first mem_cons_self),
        eventsFromBytes_words true _ rest
          fun word member => fits word (mem_cons_of_mem _ member)]

theorem readStatediff_putStatediff (table : ShortStateHash → Option Key)
    (shortstatehash : ShortStateHash) {diff : StateDiff} (fits : diff.Fits)
    (parent : diff.parent ≠ some 0) (added : Keyed diff.added) :
    readStatediff (putStatediff table shortstatehash diff) shortstatehash =
      .ok diff := by
  unfold readStatediff putStatediff
  rw [Function.update_self]
  simp only
  rw [statediffBytes_words,
    statediffFromBytes_words (encodeStatediff_fits fits),
    decodeStatediff_encodeStatediff added parent]

theorem readStatediff_putStatediff_pair :
    readStatediff (putStatediff (fun _ => none) 7
        { parent := some 3, added := {toLex (1, 0), toLex (256, 2)}
          removed := {toLex (1, 9)} }) 7 =
      .ok { parent := some 3, added := {toLex (1, 0), toLex (256, 2)}
            removed := {toLex (1, 9)} } :=
  readStatediff_putStatediff _ 7
    ⟨by rintro _ ⟨⟩; decide, by
      intro event member
      simp only [Finset.mem_insert, Finset.mem_singleton] at member
      rcases member with (rfl | rfl) | rfl <;> decide⟩
    (by decide) (by
      intro event member
      simp only [Finset.mem_insert, Finset.mem_singleton] at member
      rcases member with rfl | rfl <;> decide)

end

end ArcanaServer.Rooms
