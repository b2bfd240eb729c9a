import ArcanaServer.Library.Graphs
import ArcanaServer.Timeline.Ranges
import Mathlib.Data.List.Dedup
import Mathlib.Data.List.Perm.Subperm

namespace ArcanaServer.Rooms.Relations

open Database Library ArcanaServer.Matrix List SortedTable PduCount

/-! The events that relate to an event, and those that relate to them in
turn. -/

abbrev DrawnCount := { count : PduCount // count.Drawn }

/-- A relation from the second event of the key to the first one. -/
def relationKey (to_ from_ : UInt64) : Key := u64Bytes to_ ++ u64Bytes from_

structure RelationTable where
  table : SortedTable Key Unit
  drawn : ∀ row ∈ table, ∃ to_ from_ : UInt64,
    (normal to_).Drawn ∧ (normal from_).Drawn ∧
      row.1 = relationKey to_ from_

namespace RelationTable

def empty : RelationTable := ⟨.empty, fun _ member =>
  absurd member SortedTable.not_mem_empty⟩

/-- Relations of backfilled events are not stored. -/
def addRelation (relations : RelationTable) :
    DrawnCount × DrawnCount → RelationTable
  | (⟨.normal from_, fromDrawn⟩, ⟨.normal to_, toDrawn⟩) =>
      { table := relations.table.put (relationKey to_ from_) ()
        drawn := by
          intro row member
          rcases SortedTable.mem_put.mp member with new | old
          · exact ⟨to_, from_, toDrawn, fromDrawn, by rw [new]⟩
          · exact relations.drawn row old.1 }
  | _ => relations

def ofList (relations : List (DrawnCount × DrawnCount)) : RelationTable :=
  relations.foldl addRelation empty

end RelationTable

abbrev PdusIterItem := PduCount × Pdu

/-- `getPduFromId` finds the events that can be read. -/
structure PduMetadata where
  tofromRelation : RelationTable
  getShortroomid : RoomId → Option ShortRoomId
  getPduCount : EventId → Option PduCount
  getPduFromId : PduId → Option Pdu

def intoUnsigned : PduCount → UInt64
  | .normal count => count
  | .backfilled count => count.toUInt64

def isWithin (dir : Direction) (from_ count : PduCount) : Bool :=
  from_ = .min || from_ = .max ||
    match dir with
    | .forward => intoUnsigned from_ < intoUnsigned count
    | .backward => intoUnsigned count < intoUnsigned from_

/-- A backfilled target has no relations. -/
def targetOf : PduCount → UInt64
  | .normal count => count
  | .backfilled _ => 0

section

variable (getRelations : PduCount → List PdusIterItem) (limit maxDepth : Nat)

/-- The loop over the relations of one event; an error is a break of the loop
around it. -/
def pushRelations (depth : Nat) : List PdusIterItem →
    List (PdusIterItem × Nat) → List PdusIterItem →
    Except (List PdusIterItem) (List (PdusIterItem × Nat) × List PdusIterItem)
  | [], stack, pdus => .ok (stack, pdus)
  | relation :: rest, stack, pdus =>
      let stack :=
        if depth < maxDepth then (relation, depth + 1) :: stack else stack
      let pdus := pdus ++ [relation]
      if limit ≤ pdus.length then .error pdus
      else pushRelations depth rest stack pdus

/-- The last event of the stack is the head of the list. -/
def walkRelations : Nat → List (PdusIterItem × Nat) → List PdusIterItem →
    Option (List PdusIterItem)
  | _, [], pdus => some pdus
  | 0, _ :: _, _ => none
  | rounds + 1, (item, depth) :: stack, pdus =>
      match pushRelations limit maxDepth depth (getRelations item.1) stack
          pdus with
      | .error pdus => some pdus
      | .ok (stack, pdus) => walkRelations rounds stack pdus

end

namespace PduMetadata

variable (data : PduMetadata)

def relationKeys (target : UInt64) (from_ : PduCount) :
    Direction → List (Key × Unit)
  | .forward => data.tofromRelation.table.scanPrefixFrom (u64Bytes target)
      (relationKey target (intoUnsigned from_))
  | .backward => data.tofromRelation.table.scanPrefixRev (u64Bytes target)
      (relationKey target (intoUnsigned from_))

def countOf (row : Key × Unit) : PduCount :=
  .fromUnsigned (u64FromBytes ((row.1.drop 8).take 8))

/-- `Data::get_relations`. -/
def dataRelations (shortroomid : ShortRoomId) (from_ : PduCount)
    (dir : Direction) (target : PduCount) : List PdusIterItem :=
  (((data.relationKeys (targetOf target) from_ dir).map countOf).filter
    (isWithin dir from_)).filterMap (fun shorteventid =>
      (data.getPduFromId { shortroomid, shorteventid }).map
        (fun pdu => (shorteventid, pdu)))

/-- `Service::get_relations`, without a value if the rounds do not suffice. -/
def getRelations (rounds : Nat) (roomId : RoomId) (target : EventId)
    (from_ : PduCount) (limit : Nat) (maxDepth : UInt8) (dir : Direction) :
    Option (List PdusIterItem) :=
  match data.getShortroomid roomId, data.getPduCount target with
  | some shortroomid, some count =>
      let pdus := data.dataRelations shortroomid from_ dir count
      let stack := (pdus.filter (fun _ => 0 < maxDepth)).map
        (fun pdu => (pdu, 1))
      walkRelations (data.dataRelations shortroomid from_ dir) limit
        maxDepth.toNat rounds stack.reverse pdus
  | _, _ => some []

end PduMetadata

theorem mem_addRelation {table : RelationTable}
    {relation : DrawnCount × DrawnCount} {to_ from_ : UInt64} :
    (relationKey to_ from_, ()) ∈ (table.addRelation relation).table ↔
      (relation.1.1 = .normal from_ ∧ relation.2.1 = .normal to_) ∨
        (relationKey to_ from_, ()) ∈ table.table := by
  obtain ⟨⟨event, eventDrawn⟩, ⟨target, targetDrawn⟩⟩ := relation
  cases event with
  | backfilled count =>
      exact (or_iff_right fun ⟨same, _⟩ => by cases same).symm
  | normal count =>
      cases target with
      | backfilled other =>
          exact (or_iff_right fun ⟨_, same⟩ => by cases same).symm
      | normal other =>
          have keys : relationKey to_ from_ = relationKey other count ↔
              count = from_ ∧ other = to_ := by
            constructor
            · intro same
              obtain ⟨firsts, seconds⟩ := append_inj same
                (by rw [u64Bytes_length, u64Bytes_length])
              exact ⟨(u64Bytes_inj seconds).symm, (u64Bytes_inj firsts).symm⟩
            · rintro ⟨rfl, rfl⟩
              rfl
          change (relationKey to_ from_, ()) ∈
            table.table.put (relationKey other count) () ↔ _
          rw [mem_put, Prod.mk.injEq, and_iff_left rfl, keys,
            ne_eq, keys, normal.injEq, normal.injEq]
          exact ⟨fun either => either.imp_right And.left, fun either => by
            by_cases here : count = from_ ∧ other = to_
            · exact .inl here
            · exact .inr ⟨either.resolve_left here, fun ⟨one, two⟩ =>
                here ⟨one, two⟩⟩⟩

theorem mem_ofList {relations : List (DrawnCount × DrawnCount)}
    {to_ from_ : UInt64} :
    (relationKey to_ from_, ()) ∈ (RelationTable.ofList relations).table ↔
      ∃ relation ∈ relations,
        relation.1.1 = .normal from_ ∧ relation.2.1 = .normal to_ := by
  have start (table : RelationTable) : (relationKey to_ from_, ()) ∈
          (relations.foldl RelationTable.addRelation table).table ↔
        (∃ relation ∈ relations,
          relation.1.1 = .normal from_ ∧ relation.2.1 = .normal to_) ∨
          (relationKey to_ from_, ()) ∈ table.table := by
    induction relations generalizing table with
    | nil => simp
    | cons first rest ih =>
        rw [foldl_cons, ih, mem_addRelation]
        simp only [mem_cons, exists_eq_or_imp]
        exact or_left_comm.trans or_assoc.symm
  exact (start .empty).trans (or_iff_left not_mem_empty)

/-- What the scan and its filter let pass. -/
def Sees (dir : Direction) (from_ count : PduCount) : Prop :=
  isWithin dir from_ count = true ∧
    match dir with
    | .forward => ¬ intoUnsigned count < intoUnsigned from_
    | .backward => ¬ intoUnsigned from_ < intoUnsigned count

section

variable {data : PduMetadata} {room : ShortRoomId} {from_ : PduCount}
  {dir : Direction} {target : PduCount} {row : Key × Unit}

theorem relationKey_lt_iff {to_ one other : UInt64} :
    relationKey to_ one < relationKey to_ other ↔ one < other := by
  unfold relationKey
  rw [append_lt_append_left_iff, u64Bytes_lt_iff]

theorem countOf_relationKey {to_ event : UInt64}
    (drawn : (normal event).Drawn) :
    PduMetadata.countOf (relationKey to_ event, ()) = .normal event := by
  unfold PduMetadata.countOf fromUnsigned relationKey
  rw [drop_left' (u64Bytes_length to_),
    take_of_length_le (u64Bytes_length event).le, u64FromBytes_u64Bytes]
  exact @Timeline.fromSigned_drawn (.normal event) drawn

theorem mem_relationKeys {key : UInt64} :
    row ∈ data.relationKeys key from_ dir ↔
      ∃ event, (normal key).Drawn ∧ (normal event).Drawn ∧
        row = (relationKey key event, ()) ∧ row ∈ data.tofromRelation.table ∧
        match dir with
        | .forward => ¬ event < intoUnsigned from_
        | .backward => ¬ intoUnsigned from_ < event := by
  have starts : u64Bytes key <+: relationKey key (intoUnsigned from_) :=
    prefix_append _ _
  have scanned : row ∈ data.relationKeys key from_ dir ↔
      row ∈ data.tofromRelation.table ∧ (match dir with
        | .forward => ¬ row.1 < relationKey key (intoUnsigned from_)
        | .backward => ¬ relationKey key (intoUnsigned from_) < row.1) ∧
        u64Bytes key <+: row.1 := by
    cases dir with
    | forward =>
        change row ∈ scanPrefixFrom _ _ _ ↔ _
        rw [scanPrefixFrom_eq_filter _ starts, mem_filter,
          Bool.and_eq_true, Bool.not_eq_true', decide_eq_false_iff_not,
          isPrefixOf_iff_prefix]
        rfl
    | backward =>
        change row ∈ scanPrefixRev _ _ _ ↔ _
        rw [scanPrefixRev_eq_filter _ starts, mem_reverse,
          mem_filter, Bool.and_eq_true, Bool.not_eq_true',
          decide_eq_false_iff_not, isPrefixOf_iff_prefix]
        rfl
  rw [scanned]
  constructor
  · rintro ⟨member, within, begins⟩
    obtain ⟨to_, event, toDrawn, drawn, isKey⟩ :=
      data.tofromRelation.drawn row member
    rw [isKey] at within begins
    have same := u64Bytes_prefix_iff.mp begins
    rw [← same] at within isKey toDrawn
    refine ⟨event, toDrawn, drawn, Prod.ext isKey rfl, member, ?_⟩
    cases dir with
    | forward
    | backward => exact fun less => within (relationKey_lt_iff.mpr less)
  · rintro ⟨event, _, _, rfl, member, within⟩
    refine ⟨member, ?_, prefix_append _ _⟩
    cases dir with
    | forward
    | backward => exact fun less => within (relationKey_lt_iff.mp less)

theorem drawn_of_mem {to_ event : UInt64}
    (stored : (relationKey to_ event, ()) ∈ data.tofromRelation.table) :
    (normal to_).Drawn ∧ (normal event).Drawn := by
  obtain ⟨otherTo, other, toDrawn, drawn, isKey⟩ :=
    data.tofromRelation.drawn _ stored
  obtain ⟨firsts, seconds⟩ := append_inj isKey
    (by rw [u64Bytes_length, u64Bytes_length])
  rw [u64Bytes_inj firsts, u64Bytes_inj seconds]
  exact ⟨toDrawn, drawn⟩

theorem mem_dataRelations {item : PdusIterItem} :
    item ∈ data.dataRelations room from_ dir target ↔
      (∃ to_ event, target = .normal to_ ∧ item.1 = .normal event ∧
        (relationKey to_ event, ()) ∈ data.tofromRelation.table) ∧
      Sees dir from_ item.1 ∧
      data.getPduFromId ⟨room, item.1⟩ = some item.2 := by
  unfold PduMetadata.dataRelations
  simp only [mem_filterMap, mem_filter, mem_map, Option.map_eq_some_iff]
  constructor
  · rintro ⟨count, ⟨⟨row, member, rfl⟩, within⟩, pdu, found, rfl⟩
    obtain ⟨event, toDrawn, drawn, rfl, stored, scanned⟩ :=
      mem_relationKeys.mp member
    rw [countOf_relationKey drawn] at within found ⊢
    refine ⟨⟨targetOf target, event, ?_, rfl, stored⟩, ⟨within, ?_⟩, found⟩
    · cases target with
      | normal count => rfl
      | backfilled count => exact absurd toDrawn.1 (UInt64.lt_irrefl 0)
    · cases dir with
      | forward | backward => exact scanned
  · rintro ⟨⟨to_, event, rfl, isEvent, stored⟩, ⟨within, scanned⟩, found⟩
    obtain ⟨toDrawn, drawn⟩ := drawn_of_mem stored
    refine ⟨item.1, ⟨⟨_, mem_relationKeys.mpr
      ⟨event, toDrawn, drawn, rfl, stored, ?_⟩, ?_⟩, within⟩, item.2, found,
      rfl⟩
    · rw [isEvent] at scanned
      cases dir with
      | forward | backward => exact scanned
    · rw [countOf_relationKey drawn, isEvent]

theorem nodup_relationKeys {key : UInt64} :
    (data.relationKeys key from_ dir).Nodup := by
  have distinct : data.tofromRelation.table.rows.Nodup :=
    data.tofromRelation.table.sorted.imp fun {row other} less same => by
      rw [same] at less
      exact lt_irrefl _ less
  have starts : u64Bytes key <+: relationKey key (intoUnsigned from_) :=
    prefix_append _ _
  cases dir with
  | forward =>
      change (scanPrefixFrom _ _ _).Nodup
      rw [scanPrefixFrom_eq_filter _ starts]
      exact distinct.filter _
  | backward =>
      change (scanPrefixRev _ _ _).Nodup
      rw [scanPrefixRev_eq_filter _ starts]
      exact nodup_reverse.mpr (distinct.filter _)

theorem nodup_dataRelations :
    ((data.dataRelations room from_ dir target).map Prod.fst).Nodup := by
  have counts : ((data.relationKeys (targetOf target) from_ dir).map
      PduMetadata.countOf).Nodup := by
    refine nodup_relationKeys.map_on fun row member other otherMember same => ?_
    obtain ⟨event, _, drawn, rfl, _⟩ := mem_relationKeys.mp member
    obtain ⟨otherEvent, _, otherDrawn, rfl, _⟩ :=
      mem_relationKeys.mp otherMember
    rw [countOf_relationKey drawn, countOf_relationKey otherDrawn] at same
    rw [normal.inj same]
  unfold PduMetadata.dataRelations
  rw [map_filterMap]
  refine (counts.filter _).filterMap fun count other found first second => ?_
  simp only [Option.map_map, Option.mem_def,
    Option.map_eq_some_iff] at first second
  obtain ⟨_, _, rfl⟩ := first
  obtain ⟨_, _, same⟩ := second
  exact same.symm

end

section

variable (getRelations : PduCount → List PdusIterItem)

def nextCounts (count : PduCount) : List PduCount :=
  (getRelations count).map Prod.fst

/-- What the loop finds behind an event in so many steps. -/
def found : Nat → PduCount → List PdusIterItem
  | 0, _ => []
  | steps + 1, count => (getRelations count).flatMap (fun item =>
      item :: found steps item.1)

/-- How often the loop takes an event from its stack for one that is there. -/
def roundsFor : Nat → PduCount → Nat
  | 0, _ => 1
  | steps + 1, count => 1 + ((getRelations count).map (fun item =>
      roundsFor steps item.1)).sum

def stackRounds (maxDepth : Nat) (stack : List (PdusIterItem × Nat)) : Nat :=
  (stack.map (fun entry =>
    roundsFor getRelations (maxDepth - entry.2) entry.1.1)).sum

def stackFound (maxDepth : Nat) (stack : List (PdusIterItem × Nat)) :
    List PdusIterItem :=
  stack.flatMap (fun entry =>
    found getRelations (maxDepth - entry.2 + 1) entry.1.1)

/-- The items are all there are, or enough of them. -/
def Collects (limit : Nat) (items all : List PdusIterItem) : Prop :=
  items.Perm all ∨ limit ≤ items.length ∧ items.Subperm all

variable {getRelations} {limit maxDepth depth steps : Nat} {count : PduCount}

theorem Collects.trans {items all same : List PdusIterItem}
    (collects : Collects limit items all) (perm : all.Perm same) :
    Collects limit items same :=
  collects.imp (fun whole => whole.trans perm)
    (fun ⟨full, part⟩ => ⟨full, part.trans perm.subperm⟩)

theorem map_fst_found : (found getRelations steps count).map Prod.fst =
    walkEnds (nextCounts getRelations) steps count := by
  induction steps generalizing count with
  | zero => rfl
  | succ steps ih =>
      rw [found, walkEnds, nextCounts, map_flatMap, flatMap_map]
      refine flatMap_congr fun item _ => ?_
      rw [map_cons, ih]

theorem found_succ_perm : (found getRelations (steps + 1) count).Perm
    (getRelations count ++ (getRelations count).flatMap
      (fun item => found getRelations steps item.1)) := by
  have split := (flatMap_append_perm (getRelations count) (fun item => [item])
    (fun item => found getRelations steps item.1)).symm
  rw [flatMap_singleton'] at split
  exact split

theorem exists_of_mem_found {item : PdusIterItem}
    (member : item ∈ found getRelations steps count) :
    ∃ before, item ∈ getRelations before := by
  induction steps generalizing count with
  | zero => cases member
  | succ steps ih =>
      rcases mem_append.mp (found_succ_perm.mem_iff.mp member) with
        here | behind
      · exact ⟨count, here⟩
      · obtain ⟨first, _, inside⟩ := mem_flatMap.mp behind
        exact ih inside

/-- The events that the loop puts on its stack. -/
def pushed (maxDepth depth : Nat) (relations : List PdusIterItem) :
    List (PdusIterItem × Nat) :=
  ((if depth < maxDepth then relations else []).map
    (fun relation => (relation, depth + 1))).reverse

theorem pushRelations_ok {relations pdus pdus' : List PdusIterItem}
    {stack stack' : List (PdusIterItem × Nat)}
    (result : pushRelations limit maxDepth depth relations stack pdus =
      .ok (stack', pdus')) :
    stack' = pushed maxDepth depth relations ++ stack ∧
      pdus' = pdus ++ relations := by
  induction relations generalizing stack pdus with
  | nil =>
      cases result
      simp [pushed]
  | cons relation rest ih =>
      simp only [pushRelations] at result
      split at result
      · cases result
      · obtain ⟨isStack, isPdus⟩ := ih result
        rw [isStack, isPdus]
        unfold pushed
        split <;> simp

theorem pushRelations_error {relations pdus pdus' : List PdusIterItem}
    {stack : List (PdusIterItem × Nat)}
    (result : pushRelations limit maxDepth depth relations stack pdus =
      .error pdus') :
    limit ≤ pdus'.length ∧ pdus' <+: pdus ++ relations := by
  induction relations generalizing stack pdus with
  | nil => cases result
  | cons relation rest ih =>
      simp only [pushRelations] at result
      split at result
      next full =>
        cases result
        exact ⟨full, rest, by simp⟩
      · obtain ⟨full, starts⟩ := ih result
        exact ⟨full, by simpa using starts⟩

theorem flatMap_pushed_perm (relations : List PdusIterItem) :
    (stackFound getRelations maxDepth (pushed maxDepth depth relations)).Perm
      (relations.flatMap (fun item =>
        found getRelations (maxDepth - depth) item.1)) := by
  refine ((reverse_perm _).flatMap_right _).trans ?_
  rw [flatMap_map]
  by_cases deeper : depth < maxDepth
  · rw [if_pos deeper]
    dsimp only
    rw [show maxDepth - (depth + 1) + 1 = maxDepth - depth by omega]
  · rw [if_neg deeper, show maxDepth - depth = 0 by omega]
    simp [found]

theorem stackRounds_pushed : stackRounds getRelations maxDepth
    (pushed maxDepth depth (getRelations count)) + 1 =
      roundsFor getRelations (maxDepth - depth) count := by
  unfold stackRounds pushed
  rw [map_reverse, sum_reverse, map_map]
  by_cases deeper : depth < maxDepth
  · rw [if_pos deeper, show maxDepth - depth = maxDepth - (depth + 1) + 1 by
      omega, roundsFor, Nat.add_comm]
    rfl
  · rw [if_neg deeper, show maxDepth - depth = 0 by omega]
    rfl

/-- The loop finds every walk, or it stops because there is enough. -/
theorem walkRelations_spec {rounds : Nat}
    {stack : List (PdusIterItem × Nat)} {pdus : List PdusIterItem}
    (enough : stackRounds getRelations maxDepth stack ≤ rounds) :
    ∃ items, walkRelations getRelations limit maxDepth rounds stack pdus =
        some items ∧
      Collects limit items
        (pdus ++ stackFound getRelations maxDepth stack) := by
  induction rounds generalizing stack pdus with
  | zero =>
      cases stack with
      | nil => exact ⟨pdus, rfl, .inl (by simp [stackFound])⟩
      | cons entry stack =>
          have some : 0 < roundsFor getRelations (maxDepth - entry.2)
              entry.1.1 := by
            cases maxDepth - entry.2 with
            | zero => exact Nat.one_pos
            | succ steps => exact Nat.add_pos_left Nat.one_pos _
          rw [stackRounds, map_cons, sum_cons] at enough
          omega
  | succ rounds ih =>
      cases stack with
      | nil => exact ⟨pdus, rfl, .inl (by simp [stackFound])⟩
      | cons entry stack =>
          obtain ⟨item, depth⟩ := entry
          have whole := @found_succ_perm getRelations (maxDepth - depth) item.1
          simp only [walkRelations]
          rw [stackFound, flatMap_cons]
          cases result : pushRelations limit maxDepth depth
            (getRelations item.1) stack pdus with
          | error stopped =>
              obtain ⟨full, starts⟩ := pushRelations_error result
              refine ⟨stopped, rfl, .inr ⟨full, ?_⟩⟩
              refine (starts.sublist.trans ?_).subperm.trans
                ((whole.symm.append_right _).append_left pdus).subperm
              rw [append_assoc, append_sublist_append_left]
              exact sublist_append_left _ _
          | ok next =>
              obtain ⟨stack', pdus'⟩ := next
              obtain ⟨rfl, rfl⟩ := pushRelations_ok result
              have fewer : stackRounds getRelations maxDepth
                  (pushed maxDepth depth (getRelations item.1) ++ stack) ≤
                    rounds := by
                have taken := @stackRounds_pushed getRelations maxDepth depth
                  item.1
                unfold stackRounds at enough taken ⊢
                rw [map_cons, sum_cons] at enough
                rw [map_append, sum_append]
                dsimp only at enough
                omega
              obtain ⟨items, ends, collects⟩ := ih fewer
              refine ⟨items, ends, collects.trans ?_⟩
              rw [stackFound, flatMap_append, append_assoc,
                ← append_assoc (getRelations item.1)]
              exact ((((flatMap_pushed_perm _).append_left _).trans
                whole.symm).append_right _).append_left pdus

end

/-- The steps that the relations are followed for. -/
def stepsOf (maxDepth : UInt8) : Nat :=
  if 0 < maxDepth then maxDepth.toNat + 1 else 1

namespace PduMetadata

variable {data : PduMetadata} {room : ShortRoomId} {roomId : RoomId}
  {target : EventId} {count from_ : PduCount} {limit : Nat} {maxDepth : UInt8}
  {dir : Direction}

theorem getRelations_spec (isRoom : data.getShortroomid roomId = some room)
    (isTarget : data.getPduCount target = some count) :
    ∃ least, ∀ rounds, least ≤ rounds → ∃ items,
      data.getRelations rounds roomId target from_ limit maxDepth dir =
        some items ∧
      Collects limit items (found (data.dataRelations room from_ dir)
        (stepsOf maxDepth) count) := by
  have whole := @found_succ_perm (data.dataRelations room from_ dir)
    maxDepth.toNat count
  unfold getRelations
  simp only [isRoom, isTarget]
  by_cases deep : 0 < maxDepth
  · simp only [stepsOf, deep, decide_true, filter_true, if_true]
    refine ⟨stackRounds (data.dataRelations room from_ dir) maxDepth.toNat
      ((data.dataRelations room from_ dir count).map
        (fun pdu => (pdu, 1))).reverse, fun rounds enough => ?_⟩
    obtain ⟨items, ends, collects⟩ := @walkRelations_spec _ limit _ rounds _
      (data.dataRelations room from_ dir count) enough
    have some : maxDepth.toNat - 1 + 1 = maxDepth.toNat :=
      Nat.sub_add_cancel (UInt8.lt_iff_toNat_lt.mp deep)
    refine ⟨items, ends, collects.trans ?_⟩
    refine (((reverse_perm _).flatMap_right _).append_left _).trans ?_
    rw [flatMap_map]
    dsimp only
    rw [some]
    exact whole.symm
  · refine ⟨0, fun rounds _ => ⟨data.dataRelations room from_ dir count, ?_,
      .inl ?_⟩⟩
    · simp only [deep, decide_false, filter_false, map_nil, reverse_nil]
      cases rounds <;> rfl
    · unfold stepsOf
      rw [if_neg deep]
      refine (List.Perm.of_eq ?_).trans found_succ_perm.symm
      simp [found]

section

variable (data) (relations : List (DrawnCount × DrawnCount))
  (room : ShortRoomId) (count from_ : PduCount) (maxDepth : UInt8)
  (dir : Direction)

/-- A relation between events of the room. -/
def Related (to_ event : PduCount) : Prop :=
  (data.getPduFromId ⟨room, event⟩).isSome ∧
    ∃ relation ∈ relations, relation.1.1 = event ∧ relation.2.1 = to_

/-- Such a relation, if it is stored and the code takes its event for one on
the right side. -/
def Seen (to_ event : PduCount) : Prop :=
  Related data relations room to_ event ∧ Sees dir from_ event ∧
    ∃ target number, to_ = .normal target ∧ event = .normal number

/-- The least and the greatest count bound nothing. -/
def OnSide (event : PduCount) : Prop :=
  match dir with
  | .forward => from_ < event ∨ from_ = .min
  | .backward => event < from_ ∨ from_ = .max

/-- A chain of at most so many relations, from the target on. -/
def Chain (related : PduCount → PduCount → Prop) (most : Nat)
    (chain : List PduCount) : Prop :=
  chain ≠ [] ∧ chain.length ≤ most ∧ (count :: chain).IsChain related

/-- The chains that the code follows. -/
def SeenChain (steps : Nat) (chain : List PduCount) : Prop :=
  Chain count (Seen data relations room from_ dir) steps chain

def Wanted (event : PduCount) : Prop := OnSide from_ dir event ∧ ∃ chain,
    Chain count (Related data relations room) (max 1 maxDepth.toNat) chain ∧
      chain.getLast? = some event

structure Exact (items : List PdusIterItem) : Prop where
  once : (items.map Prod.fst).Nodup
  events : ∀ event, event ∈ items.map Prod.fst ↔
    Wanted data relations room count from_ maxDepth dir event
  read : ∀ item ∈ items, data.getPduFromId ⟨room, item.1⟩ = some item.2

/-- What the code sees is what is wanted, and it sees each event by one chain
only. -/
structure SeesWanted : Prop where
  reached : ∀ event, Wanted data relations room count from_ maxDepth dir event →
    ∃ chain, SeenChain data relations room count from_ dir (stepsOf maxDepth)
      chain ∧ chain.getLast? = some event
  wanted : ∀ chain event,
    SeenChain data relations room count from_ dir (stepsOf maxDepth) chain →
      chain.getLast? = some event →
        Wanted data relations room count from_ maxDepth dir event
  single : ∀ chain other,
    SeenChain data relations room count from_ dir (stepsOf maxDepth) chain →
      SeenChain data relations room count from_ dir (stepsOf maxDepth) other →
        chain.getLast? = other.getLast? → chain = other

def ofRoom : List (DrawnCount × DrawnCount) :=
  (relations.filter (fun relation =>
    (data.getPduFromId ⟨room, relation.1.1⟩).isSome)).dedup

variable {data relations room count from_ maxDepth dir}
variable (stored : data.tofromRelation = .ofList relations)
include stored

theorem mem_nextCounts {to_ event : PduCount} :
    event ∈ nextCounts (data.dataRelations room from_ dir) to_ ↔
      Seen data relations room from_ dir to_ event := by
  unfold nextCounts
  rw [mem_map]
  constructor
  · rintro ⟨item, member, rfl⟩
    obtain ⟨⟨target, number, isTarget, isNumber, row⟩, sees, found⟩ :=
      mem_dataRelations.mp member
    rw [stored, mem_ofList] at row
    rw [← isTarget, ← isNumber] at row
    exact ⟨⟨by rw [found]; rfl, row⟩, sees, target, number, isTarget,
      isNumber⟩
  · rintro ⟨⟨readable, row⟩, sees, target, number, rfl, rfl⟩
    obtain ⟨pdu, found⟩ := Option.isSome_iff_exists.mp readable
    refine ⟨(.normal number, pdu), mem_dataRelations.mpr
      ⟨⟨target, number, rfl, rfl, ?_⟩, sees, found⟩, rfl⟩
    rw [stored]
    exact mem_ofList.mpr row

theorem mem_seenWalks {steps : Nat} {chain : List PduCount} :
    chain ∈ walks (nextCounts (data.dataRelations room from_ dir)) steps count ↔
      SeenChain data relations room count from_ dir steps chain := by
  have same : Step (nextCounts (data.dataRelations room from_ dir)) =
      Seen data relations room from_ dir := by
    funext to_ event
    exact propext (mem_nextCounts stored)
  rw [mem_walks, same]
  rfl

theorem seesWanted_iff :
    SeesWanted data relations room count from_ maxDepth dir ↔
      (walkEnds (nextCounts (data.dataRelations room from_ dir))
        (stepsOf maxDepth) count).Nodup ∧
      ∀ event, event ∈ walkEnds (nextCounts
          (data.dataRelations room from_ dir)) (stepsOf maxDepth) count ↔
        Wanted data relations room count from_ maxDepth dir event := by
  have nodup (before : PduCount) : (nextCounts
      (data.dataRelations room from_ dir) before).Nodup := nodup_dataRelations
  rw [nodup_walkEnds_iff nodup]
  simp only [mem_walkEnds, mem_seenWalks stored]
  constructor
  · rintro ⟨reached, wanted, single⟩
    exact ⟨fun chain one other two => single chain other one two,
      fun event => ⟨fun ⟨chain, inside, ends⟩ =>
        wanted chain event inside ends, reached event⟩⟩
  · rintro ⟨single, same⟩
    exact ⟨fun event => (same event).mpr, fun chain event inside ends =>
      (same event).mp ⟨chain, inside, ends⟩,
      fun chain other one two => single chain one other two⟩

/-- Without repetitions there are not more events than relations. -/
theorem length_le_ofRoom {counts : List PduCount} (once : counts.Nodup)
    {steps : Nat} (inside : ∀ event ∈ counts, event ∈ walkEnds
      (nextCounts (data.dataRelations room from_ dir)) steps count) :
    counts.length ≤ (ofRoom data relations room).length := by
  have subset : counts ⊆ (ofRoom data relations room).map
      (fun relation => relation.1.1) := by
    intro event member
    obtain ⟨before, step⟩ := exists_step_of_mem_walkEnds (inside event member)
    obtain ⟨⟨readable, relation, listed, rfl, _⟩, _⟩ :=
      (mem_nextCounts stored).mp step
    exact mem_map.mpr ⟨relation, mem_dedup.mpr
      (mem_filter.mpr ⟨listed, readable⟩), rfl⟩
  have fewer := (subperm_of_subset once subset).length_le
  rwa [length_map] at fewer

/-- The relations that are found are exact if and only if the code sees what is
wanted, and each event by one chain. -/
theorem getRelations_exact_iff {target : EventId} {limit : Nat}
    (isRoom : data.getShortroomid roomId = some room)
    (isTarget : data.getPduCount target = some count)
    (above : (ofRoom data relations room).length < limit) :
    ∃ least, ∀ rounds, least ≤ rounds → ∃ items,
      data.getRelations rounds roomId target from_ limit maxDepth dir =
        some items ∧
      (Exact data relations room count from_ maxDepth dir items ↔
        SeesWanted data relations room count from_ maxDepth dir) := by
  obtain ⟨least, ends⟩ := getRelations_spec isRoom isTarget
  refine ⟨least, fun rounds enough => ?_⟩
  obtain ⟨items, returned, either⟩ := ends rounds enough
  refine ⟨items, returned, ?_⟩
  rw [seesWanted_iff stored, ← map_fst_found]
  rcases either with all | enough
  · have counts := all.map Prod.fst
    have read : ∀ item ∈ items,
        data.getPduFromId ⟨room, item.1⟩ = some item.2 := by
      intro item member
      obtain ⟨before, inside⟩ := exists_of_mem_found (all.mem_iff.mp member)
      exact (mem_dataRelations.mp inside).2.2
    rw [← counts.nodup_iff]
    simp only [← counts.mem_iff]
    exact ⟨fun exact => ⟨exact.once, exact.events⟩,
      fun ⟨once, events⟩ => ⟨once, events, read⟩⟩
  · obtain ⟨full, part⟩ := enough
    obtain ⟨listed, same, sublist⟩ := part
    have counts := same.map Prod.fst
    have repeats : ¬ (items.map Prod.fst).Nodup := by
      intro once
      have fewer := length_le_ofRoom stored once fun event member => by
        rw [← map_fst_found]
        exact (sublist.map Prod.fst).subset (counts.mem_iff.mpr member)
      rw [length_map] at fewer
      omega
    refine iff_of_false (fun exact => repeats exact.once) ?_
    rintro ⟨once, _⟩
    exact repeats (counts.nodup_iff.mp (once.sublist (sublist.map Prod.fst)))

end

end PduMetadata

namespace Thread

def message : Pdu := Pdu.message "$message" "!room" "@alice"

def number (count : UInt64) (drawn : (normal count).Drawn) :
    DrawnCount := ⟨.normal count, drawn⟩

def first : DrawnCount := number 1 (by decide)

def second : DrawnCount := number 2 (by decide)

theorem drawn_third : (normal 3).Drawn := by decide

def third : DrawnCount := number 3 drawn_third

def replies : List (DrawnCount × DrawnCount) := [(second, first), (third, second)]

def data : PduMetadata where
  tofromRelation := .ofList replies
  getShortroomid _ := some 7
  getPduCount _ := some first.1
  getPduFromId _ := some message

theorem replies_exact_iff : ∃ least, ∀ rounds, least ≤ rounds → ∃ items,
    data.getRelations rounds "!room" "$first" .max 3 1 .backward =
      some items ∧
    (PduMetadata.Exact data replies 7 first.1 .max 1 .backward items ↔
      PduMetadata.SeesWanted data replies 7 first.1 .max 1 .backward) :=
  PduMetadata.getRelations_exact_iff rfl rfl rfl (by decide +kernel)

theorem replies_not_exact : ∃ items,
    data.getRelations 2 "!room" "$first" .max 3 1 .backward = some items ∧
    ¬ PduMetadata.Exact data replies 7 first.1 .max 1 .backward items := by
  have counts : (data.getRelations 2 "!room" "$first" .max 3 1 .backward).map
      (fun items => items.map Prod.fst) = some [second.1, third.1] := by
    decide +kernel
  obtain ⟨items, returned, listed⟩ := Option.map_eq_some_iff.mp counts
  refine ⟨items, returned, fun exact => ?_⟩
  have member : third.1 ∈ items.map Prod.fst := by
    rw [listed]
    decide
  obtain ⟨_, chain, ⟨some, short, related⟩, ends⟩ :=
    (exact.events third.1).mp member
  obtain ⟨event, rfl⟩ := length_eq_one_iff.mp (Nat.le_antisymm short
    (length_pos_of_ne_nil some))
  have isThird : event = third.1 := Option.some.inj ends
  rw [isThird, isChain_cons_cons] at related
  obtain ⟨_, relation, listed, isEvent, isTarget⟩ := related.1
  simp only [replies, mem_cons, not_mem_nil, or_false] at listed
  rcases listed with rfl | rfl
  · exact absurd isEvent (by decide)
  · exact absurd isTarget (by decide)

end Thread

end ArcanaServer.Rooms.Relations
