import ArcanaServer.Database.Prefixes
import ArcanaServer.Library.EntryTable
import ArcanaServer.Library.Settles
import Mathlib.Order.Fin.Basic

namespace ArcanaServer.Rooms.Alias

open Library ArcanaServer.Matrix
open Database (Key textPrefix joined saturatingInc)
open SortedTable

structure RoomAliasId where
  localpart : String
  serverName : ServerName
  deriving DecidableEq, Repr

inductive Failure where
  | forbidden (message : String)
  | notFound (message : String)
  | database (message : String)
  deriving DecidableEq, Repr

structure Globals where
  adminAlias : RoomAliasId
  serverUser : UserId
  serverName : ServerName

/-- What the other services answer when a user removes an alias of a room. -/
structure Surroundings where
  userIsAdmin : Bool
  /-- Whether the power levels of the room let the user change its canonical
  alias, if they can be read. -/
  userCanSendCanonicalAlias : Option Bool
  /-- The sender of the create event, if it is there. -/
  createSender : Option UserId

structure Tables where
  counter : UInt64
  aliasUserid : EntryTable String UserId
  aliasRoomid : EntryTable String RoomId
  aliasidAlias : SortedTable Key RoomAliasId

namespace Tables

variable (globals : Globals) (tables : Tables)

def empty (counter : UInt64) : Tables where
  counter
  aliasUserid := ∅
  aliasRoomid := ∅
  aliasidAlias := .empty

def nextCount : UInt64 × Tables :=
  let counter := saturatingInc tables.counter
  (counter, { tables with counter })

def aliasid (roomId : RoomId) (count : UInt64) : Key :=
  joined [.str roomId, .u64 count]

variable (roomAlias : RoomAliasId)

def reserved (userId : UserId) : Bool :=
  decide (roomAlias = globals.adminAlias) &&
    decide (userId ≠ globals.serverUser)

def setAlias (roomId : RoomId) (userId : UserId) : Except Failure Tables :=
  if reserved globals roomAlias userId then
    .error (.forbidden "Only the server user can set this alias")
  else
    let (count, tables) := tables.nextCount
    .ok { tables with
      aliasUserid := tables.aliasUserid.insert roomAlias.localpart userId
      aliasRoomid := tables.aliasRoomid.insert roomAlias.localpart roomId
      aliasidAlias := tables.aliasidAlias.put (aliasid roomId count) roomAlias }

def resolveLocalAlias : Option RoomId :=
  tables.aliasRoomid.lookup roomAlias.localpart

def whoCreatedAlias : Option UserId :=
  tables.aliasUserid.lookup roomAlias.localpart

def localAliasesForRoom (roomId : RoomId) : List RoomAliasId :=
  (tables.aliasidAlias.scanPrefix (textPrefix [roomId])).map Prod.snd

variable (surroundings : Surroundings) (roomAlias : RoomAliasId)
  (userId : UserId)

def userCanRemoveAlias : Except Failure Bool :=
  match tables.resolveLocalAlias roomAlias with
  | none => .error (.notFound "Alias not found.")
  | some _ =>
      if tables.whoCreatedAlias roomAlias = some userId ||
          surroundings.userIsAdmin || globals.serverUser = userId then .ok true
      else
        match surroundings.userCanSendCanonicalAlias with
        | some can => .ok can
        | none =>
            match surroundings.createSender with
            | some sender => .ok (decide (sender = userId))
            | none => .error (.database "Room has no m.room.create event")

def removeAliasidAliasEntries (roomId : RoomId) (roomAlias : RoomAliasId) :
    Tables :=
  let keys := ((tables.aliasidAlias.scanPrefix (textPrefix [roomId])).filter
    fun row => decide (row.2 = roomAlias)).map Prod.fst
  { tables with aliasidAlias := tables.aliasidAlias.eraseAll keys }

def removeAlias : Except Failure Tables := do
  if reserved globals roomAlias userId then
    throw (.forbidden "Only the server user can remove this alias")
  if !(← tables.userCanRemoveAlias globals surroundings roomAlias userId) then
    throw (.forbidden "User is not permitted to remove this alias.")
  match tables.aliasRoomid.lookup roomAlias.localpart with
  | none => throw (.notFound "Alias does not exist or is invalid.")
  | some roomId =>
      let tables := tables.removeAliasidAliasEntries roomId roomAlias
      return { tables with
        aliasRoomid := tables.aliasRoomid.erase roomAlias.localpart
        aliasUserid := tables.aliasUserid.erase roomAlias.localpart }

end Tables

section

variable {globals : Globals} {tables : Tables} {roomId room : RoomId}
  {count other : UInt64} {roomAlias named : RoomAliasId}

abbrev LocalAlias (globals : Globals) :=
  { roomAlias : RoomAliasId // roomAlias.serverName = globals.serverName }

theorem localpart_eq_iff {one other : LocalAlias globals} :
    one.1.localpart = other.1.localpart ↔ one = other := by
  constructor
  · intro same
    obtain ⟨⟨localpart, serverName⟩, ours⟩ := one
    obtain ⟨⟨otherLocalpart, otherServerName⟩, otherOurs⟩ := other
    cases same
    cases ours
    cases otherOurs
    rfl
  · intro same
    rw [same]

structure Agrees (globals : Globals) (tables : Tables) : Prop where
  listed : ∀ (roomId : RoomId) (roomAlias : LocalAlias globals),
    (tables.localAliasesForRoom roomId).count roomAlias.1 =
      if tables.resolveLocalAlias roomAlias.1 = some roomId then 1 else 0
  creator : ∀ roomAlias : LocalAlias globals,
    tables.resolveLocalAlias roomAlias.1 = none →
      tables.whoCreatedAlias roomAlias.1 = none

theorem textPrefix_aliasid_iff :
    textPrefix [room] <+: Tables.aliasid roomId count ↔ room = roomId := by
  have exact_ := @Database.textPrefix_joined_iff [room] [roomId]
    [.u64 count] rfl (List.cons_ne_nil _ _)
  refine exact_.trans ?_
  rw [List.cons.injEq, and_iff_left rfl]

theorem aliasid_inj
    (same : Tables.aliasid roomId count = Tables.aliasid room other) :
    roomId = room ∧ count = other := by
  have starts : textPrefix [roomId] <+: Tables.aliasid room other :=
    same ▸ textPrefix_aliasid_iff.mpr rfl
  have rooms := textPrefix_aliasid_iff.mp starts
  rw [rooms] at same
  have tails := List.append_cancel_left
    (show Database.strBytes room ++ (Sending.separator ::
        Database.u64Bytes count ++ []) =
      Database.strBytes room ++ (Sending.separator ::
        Database.u64Bytes other ++ []) from same)
  rw [List.append_nil, List.append_nil] at tails
  exact ⟨rooms, Database.u64Bytes_inj (List.tail_eq_of_cons_eq tails)⟩

def lists (roomId : RoomId) (roomAlias : RoomAliasId)
    (row : Key × RoomAliasId) : Bool :=
  (textPrefix [roomId]).isPrefixOf row.1 && decide (row.2 = roomAlias)

theorem count_localAliasesForRoom (tables : Tables) (roomId : RoomId)
    (roomAlias : RoomAliasId) :
    (tables.localAliasesForRoom roomId).count roomAlias =
      tables.aliasidAlias.rows.countP (lists roomId roomAlias) := by
  unfold Tables.localAliasesForRoom scanPrefix
  rw [scanRows_eq_filter _ _ tables.aliasidAlias.sorted,
    List.count_eq_countP, List.countP_map, List.countP_filter]
  refine List.countP_congr fun row _ => ?_
  unfold lists
  rw [Function.comp_apply, beq_eq_decide, Bool.and_comm]

theorem lists_aliasid (named : RoomAliasId) :
    lists roomId roomAlias (Tables.aliasid room count, named) = true ↔
      roomId = room ∧ named = roomAlias := by
  unfold lists
  rw [Bool.and_eq_true, List.isPrefixOf_iff_prefix, textPrefix_aliasid_iff,
    decide_eq_true_eq]

structure Held (globals : Globals) (tables : Tables) : Prop where
  agrees : Agrees globals tables
  ours : ∀ row ∈ tables.aliasidAlias, row.2.serverName = globals.serverName
  drawn : ∀ roomId count, tables.counter.toNat < count.toNat →
    tables.aliasidAlias.get (Tables.aliasid roomId count) = none

/-- The alias is free, or the row that is about to be written is there
already.  The latter needs counts that are used up. -/
def Fits (tables : Tables) (roomAlias : RoomAliasId) (roomId : RoomId) :
    Prop :=
  if tables.counter.toNat + 1 < UInt64.size then
    tables.resolveLocalAlias roomAlias = none
  else
    match tables.aliasidAlias.get (Tables.aliasid roomId tables.counter) with
    | none => tables.resolveLocalAlias roomAlias = none
    | some stored => stored = roomAlias

theorem nextCount_of_lt (fits : tables.counter.toNat + 1 < UInt64.size) :
    tables.counter.toNat < tables.nextCount.1.toNat := by
  refine UInt64.lt_iff_toNat_lt.mp (Database.lt_saturatingInc ?_)
  intro last
  rw [last] at fits
  exact absurd fits (by decide)

theorem nextCount_of_max (last : ¬ tables.counter.toNat + 1 < UInt64.size) :
    tables.nextCount.1 = tables.counter := by
  have isLast : tables.counter = Database.lastCount := by
    rw [← UInt64.toNat_inj, Database.toNat_lastCount]
    have := tables.counter.toNat_lt
    simp only [UInt64.size] at last
    omega
  rw [Tables.nextCount, isLast]
  exact Database.saturatingInc_lastCount

theorem nextCount_le : tables.counter.toNat ≤ tables.nextCount.1.toNat :=
  UInt64.le_iff_toNat_le.mp (Database.le_saturatingInc _)

theorem Held.fits_iff (held : Held globals tables) :
    Fits tables roomAlias roomId ↔ match tables.aliasidAlias.get
          (Tables.aliasid roomId tables.nextCount.1) with
      | none => tables.resolveLocalAlias roomAlias = none
      | some stored => stored = roomAlias := by
  unfold Fits
  split
  next fits => rw [held.drawn roomId _ (nextCount_of_lt fits)]
  next last => rw [nextCount_of_max last]

def bound (tables : Tables) (roomAlias : RoomAliasId) (roomId : RoomId)
    (userId : UserId) : Tables where
  counter := tables.nextCount.1
  aliasUserid := tables.aliasUserid.insert roomAlias.localpart userId
  aliasRoomid := tables.aliasRoomid.insert roomAlias.localpart roomId
  aliasidAlias := tables.aliasidAlias.put
    (Tables.aliasid roomId tables.nextCount.1) roomAlias

theorem setAlias_eq (userId : UserId) :
    tables.setAlias globals roomAlias roomId userId =
      if Tables.reserved globals roomAlias userId = true then
        .error (.forbidden "Only the server user can set this alias")
      else .ok (bound tables roomAlias roomId userId) := by
  rfl

variable {userId : UserId} {one two : LocalAlias globals}

theorem resolve_bound :
    (bound tables one.1 roomId userId).resolveLocalAlias two.1 =
      if two = one then some roomId else tables.resolveLocalAlias two.1 := by
  unfold Tables.resolveLocalAlias bound
  rw [EntryTable.lookup_insert]
  simp only [localpart_eq_iff]

theorem creator_bound :
    (bound tables one.1 roomId userId).whoCreatedAlias two.1 =
      if two = one then some userId else tables.whoCreatedAlias two.1 := by
  unfold Tables.whoCreatedAlias bound
  rw [EntryTable.lookup_insert]
  simp only [localpart_eq_iff]

theorem count_bound :
    ((bound tables one.1 roomId userId).localAliasesForRoom room).count two.1 =
      (tables.aliasidAlias.erase
        (Tables.aliasid roomId tables.nextCount.1)).rows.countP
          (lists room two.1) +
        if room = roomId ∧ two = one then 1 else 0 := by
  rw [count_localAliasesForRoom]
  have perm := @put_perm Key RoomAliasId _ tables.aliasidAlias
    (Tables.aliasid roomId tables.nextCount.1) one.1
  refine (perm.countP_eq _).trans ?_
  rw [List.countP_cons]
  simp only [lists_aliasid, Subtype.ext_iff, eq_comm (a := one.1)]

theorem count_split (count : UInt64) :
    (tables.localAliasesForRoom room).count named =
      (tables.aliasidAlias.erase (Tables.aliasid roomId count)).rows.countP
          (lists room named) +
        if room = roomId ∧ tables.aliasidAlias.get
            (Tables.aliasid roomId count) = some named then 1 else 0 := by
  rw [count_localAliasesForRoom]
  cases found : tables.aliasidAlias.get (Tables.aliasid roomId count) with
  | none =>
      rw [erase_rows_of_absent found]
      simp
  | some stored =>
      have perm := perm_erase (get_eq_some.mp found)
      refine (perm.countP_eq _).trans ?_
      rw [List.countP_cons]
      simp only [lists_aliasid, Option.some.injEq]

/-- An alias that still leads nowhere still has no creator. -/
theorem Held.creator_of_unresolved (held : Held globals tables) (unresolved :
      (bound tables one.1 roomId userId).resolveLocalAlias two.1 = none) :
    (bound tables one.1 roomId userId).whoCreatedAlias two.1 = none := by
  rw [resolve_bound] at unresolved
  rw [creator_bound]
  split at unresolved
  · cases unresolved
  next differs =>
    rw [if_neg differs]
    exact held.agrees.creator two unresolved

theorem Held.bound_agrees_iff (held : Held globals tables) :
    Agrees globals (bound tables one.1 roomId userId) ↔
      Fits tables one.1 roomId := by
  have listed := held.agrees.listed
  rw [held.fits_iff]
  cases found : tables.aliasidAlias.get
      (Tables.aliasid roomId tables.nextCount.1) with
  | none =>
      have counts : ∀ room (two : LocalAlias globals),
          ((bound tables one.1 roomId userId).localAliasesForRoom room).count
              two.1 =
            (tables.localAliasesForRoom room).count two.1 +
              if room = roomId ∧ two = one then 1 else 0 := by
        intro room two
        rw [count_bound, @count_split tables roomId room two.1
          tables.nextCount.1, found]
        simp
      constructor
      · intro agrees
        by_contra taken
        obtain ⟨old, leads⟩ := Option.ne_none_iff_exists'.mp taken
        have before := listed old one
        have after := agrees.listed old one
        rw [counts, before, resolve_bound, leads] at after
        simp only [if_true, and_true, Option.some.injEq] at after
        by_cases same : old = roomId
        · simp [same] at after
        · simp [same, Ne.symm same] at after
      · intro free
        refine ⟨?_, fun two => held.creator_of_unresolved⟩
        intro room two
        rw [counts, listed, resolve_bound]
        by_cases same : two = one
        · rw [same, free]
          simp [eq_comm]
        · simp [same]
  | some stored =>
      have isOurs := held.ours _ (get_eq_some.mp found)
      let kept : LocalAlias globals := ⟨stored, isOurs⟩
      have before := listed roomId kept
      rw [@count_split tables roomId roomId stored tables.nextCount.1,
        found] at before
      simp only [and_self, if_true] at before
      have leads : tables.resolveLocalAlias stored = some roomId := by
        by_contra apart
        rw [if_neg apart] at before
        cases before
      have alone : (tables.aliasidAlias.erase (Tables.aliasid roomId
          tables.nextCount.1)).rows.countP (lists roomId stored) = 0 := by
        rw [if_pos leads] at before
        exact Nat.succ.inj before
      constructor
      · intro agrees
        by_contra differs
        have apart : kept ≠ one := by
          intro same
          exact differs (congrArg Subtype.val same)
        have after := agrees.listed roomId kept
        rw [count_bound, resolve_bound, if_neg apart] at after
        change _ + _ = if tables.resolveLocalAlias stored = some roomId
          then 1 else 0 at after
        rw [alone, leads] at after
        simp [apart] at after
      · intro same
        rw [same] at leads found
        have resolved : ∀ two : LocalAlias globals,
            (bound tables one.1 roomId userId).resolveLocalAlias two.1 =
              tables.resolveLocalAlias two.1 := by
          intro two
          rw [resolve_bound]
          split
          next isOne => rw [isOne, leads]
          · rfl
        refine ⟨?_, fun two => held.creator_of_unresolved⟩
        intro room two
        rw [resolved, ← listed room two, count_bound,
          @count_split tables roomId room two.1 tables.nextCount.1, found]
        simp only [Option.some.injEq, Subtype.ext_iff, eq_comm (a := one.1)]

theorem Held.bound (held : Held globals tables)
    (agrees : Agrees globals (bound tables one.1 roomId userId)) :
    Held globals (bound tables one.1 roomId userId) := by
  refine ⟨agrees, ?_, ?_⟩
  · intro row member
    rcases mem_put.mp member with new | old
    · rw [new]
      exact one.2
    · exact held.ours row old.1
  · intro room count above
    change tables.nextCount.1.toNat < count.toNat at above
    change (tables.aliasidAlias.put _ _).get _ = none
    rw [get_put]
    have differs : Tables.aliasid room count ≠
        Tables.aliasid roomId tables.nextCount.1 := by
      intro same
      rw [(aliasid_inj same).2] at above
      exact lt_irrefl _ above
    rw [if_neg differs]
    exact held.drawn room count (lt_of_le_of_lt nextCount_le above)

def unbound (tables : Tables) (roomAlias : RoomAliasId) (roomId : RoomId) :
    Tables :=
  { tables.removeAliasidAliasEntries roomId roomAlias with
    aliasRoomid := tables.aliasRoomid.erase roomAlias.localpart
    aliasUserid := tables.aliasUserid.erase roomAlias.localpart }

theorem removeAlias_ok {surroundings : Surroundings} {after : Tables}
    (result : tables.removeAlias globals surroundings roomAlias userId =
      .ok after) :
    ∃ roomId, tables.resolveLocalAlias roomAlias = some roomId ∧
      after = unbound tables roomAlias roomId := by
  unfold Tables.removeAlias at result
  dsimp only at result
  split at result
  · cases result
  · obtain ⟨permitted, _, result⟩ := bind_eq_ok result
    split at result
    · cases result
    · cases leads : tables.aliasRoomid.lookup roomAlias.localpart with
      | none =>
          rw [leads] at result
          cases result
      | some roomId =>
          rw [leads] at result
          exact ⟨roomId, leads, (Except.ok.inj result).symm⟩

theorem mem_unbound {row : Key × RoomAliasId} :
    row ∈ (unbound tables roomAlias roomId).aliasidAlias ↔
      row ∈ tables.aliasidAlias ∧ lists roomId roomAlias row = false := by
  have gone : ∀ row : Key × RoomAliasId, row ∈ tables.aliasidAlias →
      (row.1 ∈ ((tables.aliasidAlias.scanPrefix
        (textPrefix [roomId])).filter fun row =>
          decide (row.2 = roomAlias)).map Prod.fst ↔
        lists roomId roomAlias row = true) := by
    intro row member
    unfold lists
    rw [Bool.and_eq_true, List.isPrefixOf_iff_prefix, decide_eq_true_eq,
      List.mem_map]
    constructor
    · intro ⟨found, listed, same⟩
      obtain ⟨scanned, value⟩ := List.mem_filter.mp listed
      obtain ⟨inside, starts⟩ := mem_scanPrefix.mp scanned
      have values : found.2 = row.2 := value_unique
        (show (row.1, found.2) ∈ tables.aliasidAlias from same ▸ inside)
        (show (row.1, row.2) ∈ tables.aliasidAlias from member)
      exact ⟨same ▸ starts, values ▸ of_decide_eq_true value⟩
    · intro ⟨starts, value⟩
      exact ⟨row, List.mem_filter.mpr ⟨mem_scanPrefix.mpr
        ⟨member, starts⟩, decide_eq_true value⟩, rfl⟩
  refine mem_eraseAll.trans (and_congr_right fun member => ?_)
  rw [gone row member, Bool.not_eq_true]

theorem count_unbound :
    ((unbound tables roomAlias roomId).localAliasesForRoom room).count named =
      tables.aliasidAlias.rows.countP fun row =>
        lists room named row && !lists roomId roomAlias row := by
  have perm : (unbound tables roomAlias roomId).aliasidAlias.rows.Perm
      (tables.aliasidAlias.rows.filter fun row =>
        !lists roomId roomAlias row) := by
    refine (List.perm_ext_iff_of_nodup (rows_nodup _)
      (tables.aliasidAlias.rows_nodup.filter _)).mpr fun row => ?_
    rw [List.mem_filter, Bool.not_eq_true']
    exact mem_unbound
  rw [count_localAliasesForRoom, perm.countP_eq, List.countP_filter]

theorem resolve_unbound :
    (unbound tables one.1 roomId).resolveLocalAlias two.1 =
      if two = one then none else tables.resolveLocalAlias two.1 := by
  unfold Tables.resolveLocalAlias unbound
  rw [EntryTable.lookup_erase]
  simp only [localpart_eq_iff]

theorem creator_unbound : (unbound tables one.1 roomId).whoCreatedAlias two.1 =
      if two = one then none else tables.whoCreatedAlias two.1 := by
  unfold Tables.whoCreatedAlias unbound
  rw [EntryTable.lookup_erase]
  simp only [localpart_eq_iff]

theorem Held.unbound (held : Held globals tables)
    (leads : tables.resolveLocalAlias one.1 = some roomId) :
    Held globals (unbound tables one.1 roomId) := by
  refine ⟨⟨?_, ?_⟩, ?_, ?_⟩
  · intro room two
    rw [count_unbound, resolve_unbound]
    have before := held.agrees.listed room two
    rw [count_localAliasesForRoom] at before
    split
    next isOne =>
      rw [if_neg (by simp), List.countP_eq_zero]
      intro row member both
      rw [Bool.and_eq_true, Bool.not_eq_true'] at both
      rw [isOne] at both before
      by_cases same : room = roomId
      · rw [same, both.2] at both
        cases both.1
      · rw [leads, if_neg (by simpa using Ne.symm same),
          List.countP_eq_zero] at before
        exact before row member both.1
    next differs =>
      rw [← before]
      refine List.countP_congr fun row _ => ?_
      rw [Bool.and_eq_true, Bool.not_eq_true']
      refine and_iff_left_of_imp fun listed => ?_
      have value : row.2 = two.1 :=
        of_decide_eq_true (Bool.and_eq_true_iff.mp listed).2
      unfold lists
      rw [value, decide_eq_false fun same => differs (Subtype.ext same),
        Bool.and_false]
  · intro two unresolved
    rw [resolve_unbound] at unresolved
    rw [creator_unbound]
    split at unresolved
    next isOne => rw [if_pos isOne]
    next differs =>
      rw [if_neg differs]
      exact held.agrees.creator two unresolved
  · intro row member
    exact held.ours row (mem_unbound.mp member).1
  · intro room count above
    by_contra stored
    obtain ⟨found, isStored⟩ := Option.ne_none_iff_exists'.mp stored
    have member := (mem_unbound.mp (get_eq_some.mp isStored)).1
    have absent := held.drawn room count above
    rw [get_eq_some.mpr member] at absent
    cases absent

inductive Call (globals : Globals) where
  | setAlias (roomAlias : LocalAlias globals) (roomId : RoomId)
      (userId : UserId)
  | removeAlias (surroundings : Surroundings) (roomAlias : LocalAlias globals)
      (userId : UserId)
  | drawCount

def perform (tables : Tables) : Call globals → Tables
  | .setAlias roomAlias roomId userId =>
      match tables.setAlias globals roomAlias.1 roomId userId with
      | .ok after => after
      | .error _ => tables
  | .removeAlias surroundings roomAlias userId =>
      match tables.removeAlias globals surroundings roomAlias.1 userId with
      | .ok after => after
      | .error _ => tables
  | .drawCount => tables.nextCount.2

def FitsCall (tables : Tables) : Call globals → Prop
  | .setAlias roomAlias roomId userId =>
      Tables.reserved globals roomAlias.1 userId = false →
        Fits tables roomAlias.1 roomId
  | .removeAlias _ _ _ | .drawCount => True

theorem Held.drawCount (held : Held globals tables) :
    Held globals tables.nextCount.2 :=
  ⟨⟨held.agrees.listed, held.agrees.creator⟩, held.ours,
    fun roomId count above =>
      held.drawn roomId count (lt_of_le_of_lt nextCount_le above)⟩

theorem Held.removeAlias (held : Held globals tables)
    (surroundings : Surroundings) :
    Held globals (perform tables (.removeAlias surroundings one userId)) := by
  simp only [perform]
  cases result : tables.removeAlias globals surroundings one.1 userId with
  | error failure => exact held
  | ok after =>
      obtain ⟨roomId, leads, isAfter⟩ := removeAlias_ok result
      rw [isAfter]
      exact held.unbound leads

theorem perform_setAlias_refused
    (reserved : Tables.reserved globals one.1 userId = true) :
    perform tables (.setAlias one roomId userId) = tables := by
  unfold perform
  simp only [setAlias_eq, reserved, if_true]

theorem perform_setAlias_bound
    (allowed : Tables.reserved globals one.1 userId = false) :
    perform tables (.setAlias one roomId userId) =
      bound tables one.1 roomId userId := by
  unfold perform
  simp only [setAlias_eq, allowed, Bool.false_eq_true, if_false]

theorem Held.agrees_iff (held : Held globals tables) (call : Call globals) :
    Agrees globals (perform tables call) ↔ FitsCall tables call := by
  cases call with
  | setAlias one roomId userId =>
      cases reserved : Tables.reserved globals one.1 userId with
      | true =>
          rw [perform_setAlias_refused reserved]
          refine iff_of_true held.agrees fun allowed => ?_
          rw [reserved] at allowed
          cases allowed
      | false =>
          rw [perform_setAlias_bound reserved, held.bound_agrees_iff]
          exact ⟨fun fits _ => fits, fun fits => fits reserved⟩
  | removeAlias surroundings one userId =>
      exact iff_of_true (held.removeAlias surroundings).agrees trivial
  | drawCount => exact iff_of_true held.drawCount.agrees trivial

theorem Held.perform (held : Held globals tables) {call : Call globals}
    (agrees : Agrees globals (perform tables call)) :
    Held globals (perform tables call) := by
  cases call with
  | setAlias one roomId userId =>
      cases reserved : Tables.reserved globals one.1 userId with
      | true =>
          rw [perform_setAlias_refused reserved]
          exact held
      | false =>
          rw [perform_setAlias_bound reserved] at agrees ⊢
          exact held.bound agrees
  | removeAlias surroundings one userId => exact held.removeAlias surroundings
  | drawCount => exact held.drawCount

def AgreeThroughout (tables : Tables) : List (Call globals) → Prop
  | [] => True
  | call :: rest =>
      Agrees globals (perform tables call) ∧
        AgreeThroughout (perform tables call) rest

def FitThroughout (tables : Tables) : List (Call globals) → Prop
  | [] => True
  | call :: rest =>
      FitsCall tables call ∧ FitThroughout (perform tables call) rest

theorem Held.throughout_iff (held : Held globals tables)
    (calls : List (Call globals)) :
    AgreeThroughout tables calls ↔ FitThroughout tables calls := by
  induction calls generalizing tables with
  | nil => exact Iff.rfl
  | cons call rest inductionHypothesis =>
      unfold AgreeThroughout FitThroughout
      rw [← held.agrees_iff call]
      exact and_congr_right fun agrees =>
        inductionHypothesis (held.perform agrees)

theorem Held.empty (counter : UInt64) : Held globals (.empty counter) := by
  refine ⟨⟨fun _ _ => rfl, fun _ _ => rfl⟩, ?_, fun _ _ _ => rfl⟩
  intro row member
  exact absurd member not_mem_empty

/-- The tables agree as long as aliases are set only while they are free. -/
theorem aliasTables_agree_iff (globals : Globals) (counter : UInt64)
    (calls : List (Call globals)) :
    AgreeThroughout (.empty counter) calls ↔
      FitThroughout (.empty counter) calls :=
  (Held.empty counter).throughout_iff calls

end

namespace MovedAlias

def globals : Globals where
  adminAlias := ⟨"admins", "a"⟩
  serverUser := "@server:a"
  serverName := "a"

def lobby : LocalAlias globals := ⟨⟨"lobby", "a"⟩, rfl⟩

/-- The first room lists the alias still. -/
theorem lobby_stays_listed : ¬ AgreeThroughout (.empty 0)
      [.setAlias lobby "!old:a" globals.serverUser,
        .setAlias lobby "!new:a" globals.serverUser] := by
  intro agree
  have listed := agree.2.1.listed "!old:a" lobby
  exact absurd listed (by decide +kernel)

end MovedAlias

end ArcanaServer.Rooms.Alias
