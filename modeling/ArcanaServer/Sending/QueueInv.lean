import ArcanaServer.Sending.SenderLoop
import Mathlib.Data.List.Zip

namespace ArcanaServer.Sending

open Library List SortedTable Tables SenderWorld

inductive Named (counter : Nat) (dest : Destination) : Key → SendingEvent → Prop
  | pdu (id : RawPduId) : Named counter dest (dest.getPrefix ++ id.bytes)
      (.pdu id)
  | edu (count : Nat) (drawn : count ≤ counter) (buf : EduBuf) :
      Named counter dest (dest.getPrefix ++ toBeBytes count) (.edu buf)

namespace Named

variable {counter : Nat} {dest : Destination} {key : Key}
  {event : SendingEvent}

theorem mono {later : Nat} (grows : counter ≤ later)
    (named : Named counter dest key event) : Named later dest key event := by
  cases named with
  | pdu id => exact .pdu id
  | edu count drawn buf => exact .edu count (drawn.trans grows) buf

section

variable (named : Named counter dest key event)
include named

theorem starts : dest.getPrefix <+: key := by
  cases named with
  | pdu id | edu count drawn buf => exact prefix_append _ _

theorem dest_eq {other : Destination} (starts : other.getPrefix <+: key) :
    other = dest := by
  cases named with
  | pdu id | edu count drawn buf => exact getPrefix_prefix_iff.mp starts

theorem ne_nil : key ≠ [] := by
  rintro rfl
  exact getPrefix_ne_nil dest (prefix_nil.mp named.starts)

theorem readRow : readRow (rowOf (key, event)) = some ((key, event), dest) := by
  unfold Sending.readRow rowOf
  cases named with
  | pdu id =>
      rw [parseServercurrentevent_getPrefix]
      simp [SendingEvent.value, parseEvent, RawPduId.parse_bytes]
  | edu count drawn buf =>
      rw [parseServercurrentevent_getPrefix]
      obtain ⟨bytes, notEmpty⟩ := buf
      cases bytes with
      | nil => exact absurd rfl notEmpty
      | cons byte rest => simp [SendingEvent.value, parseEvent]

end

/-- A PDU and an EDU never have the same key. -/
theorem value_of_pdu {id : RawPduId}
    (named : Named counter dest key event) {other : Destination}
    (same : key = other.getPrefix ++ id.bytes) : event.value = [] := by
  cases named with
  | pdu => rfl
  | edu count drawn buf =>
      have tails := (getPrefix_append_inj same).2
      have length : (toBeBytes count).length = 8 := bigEndian_length 8 count
      rw [tails] at length
      cases id.isLength with
      | inl normal | inr backfilled => omega

theorem ne_new (named : Named counter dest key event) {other : Destination}
    {count : Nat} (new : counter < count) (small : count < 2 ^ 64) :
    key ≠ other.getPrefix ++ toBeBytes count := by
  intro same
  cases named with
  | pdu id =>
      have tails := (getPrefix_append_inj same).2
      have length : (toBeBytes count).length = 8 := bigEndian_length 8 count
      rw [← tails] at length
      cases id.isLength with
      | inl normal | inr backfilled => omega
  | edu old drawn buf =>
      have tails := (getPrefix_append_inj same).2
      have equal := toBeBytes_inj (by omega) small tails
      omega

end Named

def NewKey (before after : Nat) (event : SendingEvent) (dest : Destination)
    (key : Key) : Prop :=
  Named after dest key event ∧ ∀ buf, event = .edu buf →
    ∃ count, before < count ∧ count ≤ after ∧
      key = dest.getPrefix ++ toBeBytes count

theorem requestKey_same (request : Request) (tables : Tables) :
    (tables.requestKey request).2 =
        { tables with counter := (tables.requestKey request).2.counter } ∧
      request.2.getPrefix <+: (tables.requestKey request).1 := by
  obtain ⟨event, dest⟩ := request
  cases event with
  | pdu id | edu buf | flush => exact ⟨rfl, prefix_append _ _⟩

theorem requestKeys_same (requests : List Request) (tables : Tables) :
    (tables.requestKeys requests).2 =
        { tables with counter := (tables.requestKeys requests).2.counter } ∧
      ∀ drawn ∈ (requests.map Prod.snd).zip (tables.requestKeys requests).1,
        drawn.1.getPrefix <+: drawn.2 := by
  induction requests generalizing tables with
  | nil => exact ⟨rfl, fun drawn member => by cases member⟩
  | cons request rest ih =>
      obtain ⟨first, starts⟩ := requestKey_same request tables
      obtain ⟨later, each⟩ := ih (tables.requestKey request).2
      unfold requestKeys
      simp only
      refine ⟨by rw [later, first], fun drawn member => ?_⟩
      rw [map_cons, zip_cons_cons] at member
      rcases mem_cons.mp member with here | inside
      · exact here ▸ starts
      · exact each drawn inside

structure Drawn (tables : Tables) (event : SendingEvent)
    (dests : List Destination) (keys : List Key) (after : Tables) : Prop where
  length : keys.length = dests.length
  grows : tables.counter ≤ after.counter
  small : after.counter < 2 ^ 64
  each : ∀ request ∈ dests.zip keys,
    NewKey tables.counter after.counter event request.1 request.2

theorem requestKeys_drawn {event : SendingEvent} (isQueued : event ≠ .flush)
    (dests : List Destination) (tables : Tables)
    (small : tables.counter < 2 ^ 64) (enough : ∀ buf, event = .edu buf →
      tables.counter + dests.length < 2 ^ 64) :
    Drawn tables event dests
      (tables.requestKeys (dests.map (fun dest => (event, dest)))).1
      (tables.requestKeys (dests.map (fun dest => (event, dest)))).2 := by
  induction dests generalizing tables with
  | nil =>
      exact ⟨rfl, le_rfl, small, fun request member => by cases member⟩
  | cons dest rest ih =>
      have room : ∀ buf, event = .edu buf →
          tables.counter + (rest.length + 1) < 2 ^ 64 := enough
      have first : ∃ key middle, tables.requestKey (event, dest) =
          (key, middle) ∧ tables.counter ≤ middle.counter ∧
          middle.counter < 2 ^ 64 ∧
          (∀ buf, event = .edu buf → middle.counter + rest.length < 2 ^ 64) ∧
          NewKey tables.counter middle.counter event dest key := by
        cases event with
        | flush => exact absurd rfl isQueued
        | pdu id =>
            refine ⟨_, tables, rfl, le_rfl, small, ?_, .pdu id, ?_⟩
            · intro buf isEdu
              cases isEdu
            · intro buf isEdu
              cases isEdu
        | edu buf =>
            have below := room buf rfl
            have count : tables.nextCount = _ := nextCount_fresh (by omega)
            refine ⟨dest.getPrefix ++ toBeBytes (tables.counter + 1),
              { tables with counter := tables.counter + 1 }, ?_,
              Nat.le_succ _, by simp only; omega,
              fun _ _ => by simp only; omega, ?_, ?_⟩
            · unfold requestKey
              rw [count]
            · exact .edu _ le_rfl buf
            · intro other _
              exact ⟨_, Nat.lt_succ_self _, le_rfl, rfl⟩
      obtain ⟨key, middle, drawn, low, below, left, new⟩ := first
      have later := ih middle below left
      rw [map_cons, requestKeys, drawn]
      simp only
      refine ⟨?_, low.trans later.grows, later.small, ?_⟩
      · simp [later.length]
      · intro request member
        rw [zip_cons_cons] at member
        rcases mem_cons.mp member with here | inside
        · rw [here]
          refine ⟨new.1.mono later.grows, fun buf isEdu => ?_⟩
          obtain ⟨count, above, below, isKey⟩ := new.2 buf isEdu
          exact ⟨count, above, below.trans later.grows, isKey⟩
        · obtain ⟨named, count⟩ := later.each request inside
          refine ⟨named, fun buf isEdu => ?_⟩
          obtain ⟨count, above, below, isKey⟩ := count buf isEdu
          exact ⟨count, lt_of_le_of_lt low above, below, isKey⟩

namespace Tables

variable {tables : Tables} {events : List QueueItem} {row : Key × List Byte}
  {dest : Destination} {item : QueueItem}

theorem active_of_markAsActive
    (member : row ∈ (tables.markAsActive events).servercurrenteventData) :
    row ∈ tables.servercurrenteventData ∨
      ∃ event ∈ events, event.1 ≠ [] ∧ row = rowOf event := by
  refine (mem_or_mem_of_mem_putAll member).imp_right (fun listed => ?_)
  obtain ⟨event, inside, rfl⟩ := mem_map.mp listed
  obtain ⟨listed, notEmpty⟩ := mem_filter.mp inside
  exact ⟨event, listed, by simpa using notEmpty, rfl⟩

theorem markAsActive_active
    (alone : ∀ event ∈ events, event.1 = row.1 → rowOf event = row)
    (member : row ∈ tables.servercurrenteventData ∨
      ∃ event ∈ events, event.1 ≠ [] ∧ row = rowOf event) :
    row ∈ (tables.markAsActive events).servercurrenteventData := by
  refine mem_putAll ?_ (member.imp_right ?_)
  · intro other listed same
    obtain ⟨event, inside, rfl⟩ := mem_map.mp listed
    exact alone event (mem_filter.mp inside).1 same
  · rintro ⟨event, inside, notEmpty, rfl⟩
    exact mem_map_of_mem (mem_filter.mpr ⟨inside, by simpa using notEmpty⟩)

theorem mem_markAsActive_queued :
    row ∈ (tables.markAsActive events).servernameeventData ↔
      row ∈ tables.servernameeventData ∧
        ∀ event ∈ events, event.1 ≠ [] → event.1 ≠ row.1 := by
  unfold markAsActive
  simp only
  rw [mem_eraseAll]
  refine and_congr_right (fun _ => ⟨?_, ?_⟩)
  · intro unlisted event inside notEmpty same
    exact unlisted (mem_map.mpr ⟨event,
      mem_filter.mpr ⟨inside, by simpa using notEmpty⟩, same⟩)
  · intro each listed
    obtain ⟨event, inside, same⟩ := mem_map.mp listed
    obtain ⟨listed, notEmpty⟩ := mem_filter.mp inside
    exact each event listed (by simpa using notEmpty) same

theorem mem_rowsFor {rows : Rows} :
    item ∈ (rows.scanPrefix dest.getPrefix).filterMap
        (fun row => (readRow row).map Prod.fst) ↔
      ∃ row ∈ rows, dest.getPrefix <+: row.1 ∧
        ∃ other, readRow row = some (item, other) := by
  rw [mem_filterMap]
  constructor
  · rintro ⟨row, listed, read⟩
    obtain ⟨found, isFound, rfl⟩ := Option.map_eq_some_iff.mp read
    obtain ⟨member, starts⟩ := mem_scanPrefix.mp listed
    exact ⟨row, member, starts, found.2, isFound⟩
  · rintro ⟨row, member, starts, other, read⟩
    exact ⟨row, mem_scanPrefix.mpr ⟨member, starts⟩, by rw [read]; rfl⟩

end Tables

def Held (tables : Tables) (row : Key × List Byte) : Prop :=
  row ∈ tables.servernameeventData ∨ row ∈ tables.servercurrenteventData

section

variable {tables : Tables} {events : List QueueItem} {row : Key × List Byte}
  {dest : Destination}

theorem Held.of_markAsActive (held : Held (tables.markAsActive events) row) :
    Held tables row ∨ ∃ event ∈ events, event.1 ≠ [] ∧ row = rowOf event := by
  rcases held with queued | active
  · exact .inl (.inl (mem_markAsActive_queued.mp queued).1)
  · exact (active_of_markAsActive active).imp_left .inr

theorem Held.markAsActive
    (alone : ∀ event ∈ events, event.1 = row.1 → rowOf event = row)
    (held : Held tables row) : Held (tables.markAsActive events) row := by
  by_cases marked : ∃ event ∈ events, event.1 ≠ [] ∧ event.1 = row.1
  · obtain ⟨event, inside, notEmpty, same⟩ := marked
    exact .inr (markAsActive_active alone
      (.inr ⟨event, inside, notEmpty, (alone event inside same).symm⟩))
  · refine held.imp (fun queued => ?_) (fun active => ?_)
    · exact mem_markAsActive_queued.mpr ⟨queued,
        fun event inside notEmpty same =>
          marked ⟨event, inside, notEmpty, same⟩⟩
    · exact markAsActive_active alone (.inl active)

theorem held_deleteAllActiveRequestsFor :
    Held (tables.deleteAllActiveRequestsFor dest) row ↔
      row ∈ tables.servernameeventData ∨
        row ∈ tables.servercurrenteventData ∧ ¬ dest.getPrefix <+: row.1 :=
  or_congr_right mem_erasePrefix

theorem held_deleteAllRequestsFor :
    Held (tables.deleteAllRequestsFor dest) row ↔
      Held tables row ∧ ¬ dest.getPrefix <+: row.1 := by
  unfold Held deleteAllRequestsFor
  simp only [mem_erasePrefix]
  exact or_and_right.symm

end

def Known (world : SenderWorld) (row : Key × List Byte) : Prop :=
  Held world.tables row ∨ ∃ msg ∈ world.waiting, msg.queueId ≠ [] ∧
    row = rowOf (msg.queueId, msg.event)

structure QueueInv (world : SenderWorld) : Prop where
  small : world.tables.counter < 2 ^ 64
  named : ∀ row, Known world row → ∃ dest event,
    Named world.tables.counter dest row.1 event ∧ row = rowOf (row.1, event)
  waiting : ∀ msg ∈ world.waiting, msg.queueId ≠ [] →
    Named world.tables.counter msg.dest msg.queueId msg.event
  agree : ∀ row other, Known world row → Known world other →
    row.1 = other.1 → row = other

namespace QueueInv

variable {world after : SenderWorld} {row : Key × List Byte}
  {dest : Destination}

section

variable (inv : QueueInv world)
include inv

theorem of_subset (counter : after.tables.counter = world.tables.counter)
    (waiting : ∀ msg ∈ after.waiting, msg.queueId ≠ [] → msg ∈ world.waiting)
    (known : ∀ row, Held after.tables row → Known world row) :
    QueueInv after := by
  have knownAll : ∀ row, Known after row → Known world row := by
    intro row isKnown
    rcases isKnown with held | brought
    · exact known row held
    · obtain ⟨msg, member, notEmpty, isRow⟩ := brought
      exact .inr ⟨msg, waiting msg member notEmpty, notEmpty, isRow⟩
  refine ⟨counter ▸ inv.small, ?_, ?_, ?_⟩
  · intro row isKnown
    rw [counter]
    exact inv.named row (knownAll row isKnown)
  · intro msg member notEmpty
    rw [counter]
    exact inv.waiting msg (waiting msg member notEmpty) notEmpty
  · intro row other isKnown otherKnown
    exact inv.agree row other (knownAll row isKnown) (knownAll other otherKnown)

theorem ne_nil (known : Known world row) : row.1 ≠ [] := by
  obtain ⟨dest, event, named, _⟩ := inv.named row known
  exact named.ne_nil

theorem readRow (known : Known world row) (starts : dest.getPrefix <+: row.1) :
    ∃ item, readRow row = some (item, dest) ∧ rowOf item = row := by
  obtain ⟨other, event, named, isRow⟩ := inv.named row known
  have same := named.dest_eq starts
  subst same
  exact ⟨(row.1, event), by rw [isRow]; exact named.readRow, isRow.symm⟩

theorem queuedRequests {item : QueueItem}
    (listed : item ∈ world.tables.queuedRequests dest) :
    rowOf item ∈ world.tables.servernameeventData ∧
      Sending.readRow (rowOf item) = some (item, dest) := by
  obtain ⟨row, member, starts, other, read⟩ := mem_rowsFor.mp listed
  obtain ⟨found, isFound, isRow⟩ := inv.readRow (.inl (.inl member)) starts
  rw [read] at isFound
  cases isFound
  exact ⟨isRow ▸ member, by rw [isRow, read]⟩

end

end QueueInv

section

variable {world : SenderWorld} {event : SendingEvent}
  {dests : List Destination} {row : Key × List Byte}

theorem mem_newRows {keys : List Key} :
    row ∈ (keys.zip ((dests.map (fun dest => (event, dest))).map
        Prod.fst)).map rowOf ↔
      ∃ request ∈ dests.zip keys, row = rowOf (request.2, event) := by
  rw [map_map, zip_map_right, map_map, ← zip_swap, map_map, mem_map]
  exact exists_congr (fun request => and_congr_right (fun _ => eq_comm))

section

variable (world : SenderWorld) (event : SendingEvent) (dests : List Destination)
  (keys : List Key) (after : SenderWorld)

structure Sent : Prop where
  queued : after.tables.servernameeventData =
    world.tables.servernameeventData.putAll ((keys.zip ((dests.map
      (fun dest => (event, dest))).map Prod.fst)).map rowOf)
  active : after.tables.servercurrenteventData =
    world.tables.servercurrenteventData
  waiting : ∀ msg ∈ after.waiting, msg ∈ world.waiting ∨
    ∃ request ∈ dests.zip keys, msg = ⟨request.1, event, request.2⟩
  futures : after.futures = world.futures
  starts : ∀ request ∈ dests.zip keys, request.1.getPrefix <+: request.2

structure Queued : Prop extends Sent world event dests keys after where
  each : ∀ request ∈ dests.zip keys, NewKey world.tables.counter
    after.tables.counter event request.1 request.2
  grows : world.tables.counter ≤ after.tables.counter
  small : after.tables.counter < 2 ^ 64

end

theorem dispatch_same (msgs : List Msg) (world : SenderWorld) :
    (dispatch msgs world).tables = world.tables ∧
      (dispatch msgs world).futures = world.futures ∧
      ∀ msg ∈ (dispatch msgs world).waiting,
        msg ∈ world.waiting ∨ msg ∈ msgs := by
  unfold dispatch
  split
  · exact ⟨rfl, rfl, fun msg member => .inl member⟩
  · exact ⟨rfl, rfl, fun msg member => mem_append.mp member⟩

section

variable (event : SendingEvent) (dests : List Destination) (world : SenderWorld)

theorem tables_sendTo : (sendTo event dests world).tables =
      (world.tables.queueRequests (dests.map (fun dest => (event, dest)))).2 :=
  (dispatch_same _ _).1

theorem sendTo_sent :
    Sent world event dests (world.tables.queueRequests
      (dests.map (fun dest => (event, dest)))).1
      (sendTo event dests world) := by
  obtain ⟨same, starts⟩ := requestKeys_same
    (dests.map (fun dest => (event, dest))) world.tables
  obtain ⟨_, futures, waiting⟩ := dispatch_same
    ((dests.zip (world.tables.queueRequests
      (dests.map (fun dest => (event, dest)))).1).map
      (fun request => { dest := request.1, event, queueId := request.2 }))
    { world with tables := (world.tables.queueRequests
      (dests.map (fun dest => (event, dest)))).2 }
  refine ⟨?_, ?_, ?_, futures, ?_⟩
  · rw [tables_sendTo]
    unfold queueRequests
    simp only
    rw [same]
  · rw [tables_sendTo]
    unfold queueRequests
    simp only
    rw [same]
  · intro msg member
    refine (waiting msg member).imp_right (fun new => ?_)
    obtain ⟨request, listed, rfl⟩ := mem_map.mp new
    exact ⟨request, listed, rfl⟩
  · intro request member
    refine starts request ?_
    have own : (dests.map (fun dest => (event, dest))).map Prod.snd =
        dests := by
      simp [Function.comp_def]
    rw [own]
    exact member

end

theorem sendTo_queued (isQueued : event ≠ .flush)
    (small : world.tables.counter < 2 ^ 64) (enough : ∀ buf, event = .edu buf →
      world.tables.counter + dests.length < 2 ^ 64) :
    Queued world event dests (world.tables.queueRequests
      (dests.map (fun dest => (event, dest)))).1
      (sendTo event dests world) := by
  have drawn := requestKeys_drawn isQueued dests world.tables small enough
  refine ⟨sendTo_sent event dests world, ?_, ?_, ?_⟩
  · rw [tables_sendTo]
    exact drawn.each
  · rw [tables_sendTo]
    exact drawn.grows
  · rw [tables_sendTo]
    exact drawn.small

theorem Sent.mem_queued {keys : List Key} {after : SenderWorld}
    (queued : Sent world event dests keys after)
    (member : row ∈ after.tables.servernameeventData) :
    row ∈ world.tables.servernameeventData ∨
      ∃ request ∈ dests.zip keys, row = rowOf (request.2, event) := by
  rw [queued.queued] at member
  exact (mem_or_mem_of_mem_putAll member).imp_right mem_newRows.mp

namespace Queued

variable {keys : List Key} {after : SenderWorld} {request : Destination × Key}

section

variable (queued : Queued world event dests keys after)
include queued

theorem row_eq (inv : QueueInv world) (known : Known world row)
    (listed : request ∈ dests.zip keys) (same : row.1 = request.2) :
    row = rowOf (request.2, event) := by
  obtain ⟨dest, old, named, isRow⟩ := inv.named row known
  obtain ⟨newNamed, count⟩ := queued.each request listed
  obtain ⟨target, key⟩ := request
  simp only at newNamed count same ⊢
  cases event with
  | flush => cases newNamed
  | pdu id =>
      have isKey : row.1 = target.getPrefix ++ id.bytes := by
        cases newNamed
        exact same
      rw [isRow, ← same]
      exact congrArg (Prod.mk row.1) (named.value_of_pdu isKey)
  | edu buf =>
      obtain ⟨count, above, below, isKey⟩ := count buf rfl
      exact absurd (same.trans isKey)
        (named.ne_new above (lt_of_le_of_lt below queued.small))

theorem known (isKnown : Known after row) : Known world row ∨
      ∃ request ∈ dests.zip keys, row = rowOf (request.2, event) := by
  rcases isKnown with held | brought
  · rcases held with waits | active
    · exact (queued.toSent.mem_queued waits).imp_left
        (fun old => .inl (.inl old))
    · rw [queued.active] at active
      exact .inl (.inl (.inr active))
  · obtain ⟨msg, member, notEmpty, isRow⟩ := brought
    rcases queued.waiting msg member with old | new
    · exact .inl (.inr ⟨msg, old, notEmpty, isRow⟩)
    · obtain ⟨request, listed, rfl⟩ := new
      exact .inr ⟨request, listed, isRow⟩

theorem held (inv : QueueInv world) (held : Held world.tables row) :
    Held after.tables row := by
  rcases held with waits | active
  · left
    rw [queued.queued]
    refine mem_putAll (fun other new same => ?_) (.inl waits)
    obtain ⟨request, listed, rfl⟩ := mem_newRows.mp new
    exact (queued.row_eq inv (.inl (.inl waits)) listed same.symm).symm
  · exact .inr (queued.active ▸ active)

theorem held_new (listed : request ∈ dests.zip keys) :
    Held after.tables (rowOf (request.2, event)) := by
  left
  rw [queued.queued]
  refine mem_putAll (fun other new same => ?_)
    (.inr (mem_newRows.mpr ⟨request, listed, rfl⟩))
  obtain ⟨twin, _, rfl⟩ := mem_newRows.mp new
  exact Prod.ext same rfl

theorem queueInv (inv : QueueInv world) : QueueInv after where
  small := queued.small
  named row isKnown := by
    rcases queued.known isKnown with old | new
    · obtain ⟨dest, event, named, isRow⟩ := inv.named row old
      exact ⟨dest, event, named.mono queued.grows, isRow⟩
    · obtain ⟨request, listed, rfl⟩ := new
      exact ⟨request.1, event, (queued.each request listed).1, rfl⟩
  waiting msg member notEmpty := by
    rcases queued.waiting msg member with old | new
    · exact (inv.waiting msg old notEmpty).mono queued.grows
    · obtain ⟨request, listed, rfl⟩ := new
      exact (queued.each request listed).1
  agree row other isKnown otherKnown same := by
    rcases queued.known isKnown with old | new
    · rcases queued.known otherKnown with otherOld | otherNew
      · exact inv.agree row other old otherOld same
      · obtain ⟨request, listed, rfl⟩ := otherNew
        exact queued.row_eq inv old listed same
    · obtain ⟨request, listed, rfl⟩ := new
      rcases queued.known otherKnown with otherOld | otherNew
      · exact (queued.row_eq inv otherOld listed same.symm).symm
      · obtain ⟨twin, _, rfl⟩ := otherNew
        exact Prod.ext same rfl

end

end Queued

end

end ArcanaServer.Sending
