import ArcanaServer.Sending.QueueInv

namespace ArcanaServer.Sending

open Library List SortedTable Tables

/-- The action answers a transaction that contains the item, or deletes the
requests of the destination. -/
inductive Settled (world : SenderWorld) (dest : Destination)
    (item : QueueItem) : SenderAction → Prop
  | answered {action : SenderAction} (txn : Transaction)
      (answers : world.Answers txn action)
      (contains : txn.dest = dest ∧ item ∈ txn.events) :
      Settled world dest item action
  | pusherDeleted (userId pushKey : Utf8)
      (isDest : dest = .push userId pushKey) :
      Settled world dest item (.cleanupEvents none (some userId) (some pushKey))
  | appserviceDeleted (appserviceId : Utf8)
      (isDest : dest = .appservice appserviceId) :
      Settled world dest item (.cleanupEvents (some appserviceId) none none)

/-- Everything that was queued is in a table or has been settled since. -/
def NothingLost (history : List (Entry SenderWorld SenderAction SenderOutcome))
    (world : SenderWorld) : Prop :=
  ∀ earlier entry later, history = earlier ++ entry :: later →
    ∀ queued ∈ entry.before.queuedBy entry.input,
      Held world.tables (rowOf queued.2) ∨
        ∃ after ∈ later, Settled after.before queued.1 queued.2 after.input

/-- A new transaction is begun only where no active rows are left from an old
one, the counter is not used up, and nothing is dropped at the start. -/
def SenderWorld.orderly (world : SenderWorld) : SenderAction → Bool
  | .sendEdu _ dests => world.tables.counter + dests.length < 2 ^ 64
  | .handleRequest index _ =>
      match world.waiting[index]? with
      | some msg => (world.statuses msg.dest).isSome ||
          (world.tables.servercurrenteventData.scanPrefix
            msg.dest.getPrefix).isEmpty
      | none => true
  | .restart config => config.startupNetburstKeep < 0
  | _ => true

theorem SenderWorld.clean_of_orderly {world : SenderWorld} {index : Nat}
    {edus : Option (List EduBuf × Nat)} {msg : Msg}
    (orderly : world.orderly (.handleRequest index edus) = true)
    (found : world.waiting[index]? = some msg)
    (unknown : world.statuses msg.dest = none) :
    ∀ row ∈ world.tables.servercurrenteventData,
      ¬ msg.dest.getPrefix <+: row.1 := by
  intro row member starts
  simp only [SenderWorld.orderly, found, unknown, Option.isSome_none,
    Bool.false_or, List.isEmpty_iff] at orderly
  have listed := mem_scanPrefix.mpr ⟨member, starts⟩
  rw [orderly] at listed
  cases listed

def Covers (txn : Transaction) (row : Key × List Byte) : Prop :=
  ∃ item ∈ txn.events, readRow row = some (item, txn.dest)

def Covered (world : SenderWorld) : Prop :=
  ∀ txn ∈ world.futures, ∀ row ∈ world.tables.servercurrenteventData,
    txn.dest.getPrefix <+: row.1 → Covers txn row

theorem Covered.sendEvents {world : SenderWorld} {dest : Destination}
    {events : List QueueItem} (covered : Covered world)
    (new : ∀ row ∈ world.tables.servercurrenteventData,
      dest.getPrefix <+: row.1 → Covers ⟨dest, events⟩ row) :
    Covered (world.sendEvents dest events) := by
  intro txn member row active starts
  rcases mem_append.mp member with old | last
  · exact covered txn old row active starts
  · rw [mem_singleton.mp last] at starts ⊢
    exact new row active starts

structure SendInv (world : SenderWorld) : Prop where
  loop : LoopInv world
  queue : QueueInv world
  covered : Covered world

def Keeps (world after : SenderWorld) : Prop :=
  ∀ row, Held world.tables row → Held after.tables row

section

variable {world after : SenderWorld} {index : Nat} {msg : Msg}

theorem SendInv.requested (inv : SendInv world) (going : world.stopping = false)
    (found : world.waiting[index]? = some msg)
    (clean : world.statuses msg.dest = none →
      ∀ row ∈ world.tables.servercurrenteventData,
        ¬ msg.dest.getPrefix <+: row.1)
    (requested : SenderWorld.Requested
      { world with waiting := world.waiting.eraseIdx index } msg after) :
    QueueInv after ∧ Covered after ∧ Keeps world after := by
  have listed : msg ∈ world.waiting := mem_of_getElem? found
  have erased : ∀ other ∈ world.waiting.eraseIdx index,
      other.queueId ≠ [] → other ∈ world.waiting :=
    fun other member _ => mem_of_mem_eraseIdx member
  cases requested with
  | refused =>
      exact ⟨inv.queue.of_subset rfl erased (fun row held => .inl held),
        inv.covered, fun row held => held⟩
  | retried tries time failed =>
      refine ⟨inv.queue.of_subset rfl erased (fun row held => .inl held),
        Covered.sendEvents inv.covered (fun row active starts => ?_),
        fun row held => held⟩
      obtain ⟨item, read, _⟩ := inv.queue.readRow (.inl (.inr active)) starts
      exact ⟨item, mem_rowsFor.mpr ⟨row, active, starts, _, read⟩, read⟩
  | nothingLeft tries time failed =>
      exact ⟨inv.queue.of_subset rfl erased (fun row held => .inl held),
        inv.covered, fun row held => held⟩
  | started educount edus noKeys unknown =>
      have known : msg.queueId ≠ [] →
          Known world (rowOf (msg.queueId, msg.event)) :=
        fun notEmpty => .inr ⟨msg, listed, notEmpty, rfl⟩
      refine ⟨inv.queue.of_subset rfl erased (fun row held => ?_),
        Covered.sendEvents (fun txn member row active starts => ?_)
          (fun row active starts => ?_), fun row held => ?_⟩
      · rcases Held.of_markAsActive held with old | new
        · exact .inl old
        · obtain ⟨event, inside, notEmpty, rfl⟩ := new
          rw [mem_singleton.mp inside] at notEmpty ⊢
          exact known notEmpty
      · rcases active_of_markAsActive active with old | new
        · exact inv.covered txn member row old starts
        · obtain ⟨event, inside, notEmpty, rfl⟩ := new
          rw [mem_singleton.mp inside] at notEmpty starts
          have same := (inv.queue.waiting msg listed notEmpty).dest_eq starts
          have free := inv.loop.free going (by rw [unknown]; rfl)
          have flying : txn.dest ∈ world.inFlight := mem_map_of_mem member
          rw [same] at flying
          exact absurd flying free.gone
      · rcases active_of_markAsActive active with old | new
        · exact absurd starts (clean unknown row old)
        · obtain ⟨event, inside, notEmpty, rfl⟩ := new
          rw [mem_singleton.mp inside] at notEmpty ⊢
          exact ⟨_, mem_cons_self,
            (inv.queue.waiting msg listed notEmpty).readRow⟩
      · refine Held.markAsActive (fun event inside same => ?_) held
        rw [mem_singleton.mp inside] at same ⊢
        have notEmpty : msg.queueId ≠ [] := by
          rw [show msg.queueId = row.1 from same]
          exact inv.queue.ne_nil (.inl held)
        exact inv.queue.agree _ row (known notEmpty) (.inl held) same

end

section

variable {world after : SenderWorld} {index : Nat} {txn : Transaction}

def KeepsBut (txn : Transaction) (world after : SenderWorld) : Prop :=
  ∀ row, Held world.tables row → Held after.tables row ∨ Covers txn row

theorem SendInv.keepsBut_deleted (inv : SendInv world)
    (found : world.futures[index]? = some txn) {row : Key × List Byte}
    (held : Held world.tables row) :
    Held (world.tables.deleteAllActiveRequestsFor txn.dest) row ∨
      Covers txn row := by
  rw [held_deleteAllActiveRequestsFor]
  rcases held with queued | active
  · exact .inl (.inl queued)
  · by_cases starts : txn.dest.getPrefix <+: row.1
    · exact .inr (inv.covered txn (mem_of_getElem? found) row active starts)
    · exact .inl (.inr ⟨active, starts⟩)

theorem held_of_deleted {tables : Tables} {dest : Destination}
    {row : Key × List Byte}
    (held : Held (tables.deleteAllActiveRequestsFor dest) row) :
    Held tables row :=
  (held_deleteAllActiveRequestsFor.mp held).imp_right And.left

section

variable (inv : SendInv world)
include inv

theorem SendInv.covered_take (index : Nat) {tables : Tables}
    (fewer : ∀ row ∈ tables.servercurrenteventData,
      row ∈ world.tables.servercurrenteventData) :
    Covered { world.take index with tables } :=
  fun other member row active starts =>
    inv.covered other (mem_of_mem_eraseIdx member) row (fewer row active) starts

/-- The rows of new events are marked as active after the old ones are gone. -/
theorem SendInv.drained (found : world.futures[index]? = some txn)
    {newEvents : List QueueItem} (queued : newEvents =
      ((world.take index).tables.queuedRequests txn.dest).take dequeueLimit) :
    QueueInv (SenderWorld.sendEvents { world.take index with
        tables := (world.tables.deleteAllActiveRequestsFor
          txn.dest).markAsActive newEvents } txn.dest newEvents) ∧
      Covered (SenderWorld.sendEvents { world.take index with
        tables := (world.tables.deleteAllActiveRequestsFor
          txn.dest).markAsActive newEvents } txn.dest newEvents) ∧
      KeepsBut txn world (SenderWorld.sendEvents { world.take index with
        tables := (world.tables.deleteAllActiveRequestsFor
          txn.dest).markAsActive newEvents } txn.dest newEvents) := by
  have fromQueue : ∀ event ∈ newEvents,
      rowOf event ∈ world.tables.servernameeventData ∧
        readRow (rowOf event) = some (event, txn.dest) := by
    intro event inside
    rw [queued] at inside
    exact inv.queue.queuedRequests (mem_of_mem_take inside)
  have free := (inv.loop.take found).1
  refine ⟨inv.queue.of_subset rfl (fun other member _ => member)
    (fun row held => .inl ?_), Covered.sendEvents
      (fun other member row active starts => ?_)
      (fun row active starts => ?_), fun row held => ?_⟩
  · rcases Held.of_markAsActive held with old | new
    · exact held_of_deleted old
    · obtain ⟨event, inside, _, rfl⟩ := new
      exact .inl (fromQueue event inside).1
  · rcases active_of_markAsActive active with old | new
    · exact inv.covered other (mem_of_mem_eraseIdx member) row
        (mem_erasePrefix.mp old).1 starts
    · obtain ⟨event, inside, _, rfl⟩ := new
      obtain ⟨waits, read⟩ := fromQueue event inside
      obtain ⟨item, again, _⟩ := inv.queue.readRow (.inl (.inl waits)) starts
      rw [read] at again
      have same := (Prod.mk.inj (Option.some.inj again)).2
      have flying : txn.dest ∈ (world.take index).inFlight :=
        mem_map.mpr ⟨other, member, same.symm⟩
      exact absurd flying free.gone
  · rcases active_of_markAsActive active with old | new
    · exact absurd starts (mem_erasePrefix.mp old).2
    · obtain ⟨event, inside, _, rfl⟩ := new
      exact ⟨event, inside, (fromQueue event inside).2⟩
  · refine (inv.keepsBut_deleted found held).imp_left (fun kept => ?_)
    refine Held.markAsActive (fun event inside same => ?_) kept
    exact inv.queue.agree _ row (.inl (.inl (fromQueue event inside).1))
      (.inl held) same

theorem SendInv.responded (found : world.futures[index]? = some txn) :
    QueueInv (SenderWorld.handleResponseOk txn.dest (world.take index)) ∧
      Covered (SenderWorld.handleResponseOk txn.dest (world.take index)) ∧
      KeepsBut txn world
        (SenderWorld.handleResponseOk txn.dest (world.take index)) := by
  have answered := (world.take index).handleResponseOk_cases txn.dest
  generalize (world.take index).handleResponseOk txn.dest = after at answered
  cases answered with
  | drained newEvents notEmpty queued => exact inv.drained found queued
  | done =>
      exact ⟨inv.queue.of_subset rfl (fun other member _ => member)
          (fun row held => .inl (held_of_deleted held)),
        inv.covered_take index
          (fun row active => (mem_erasePrefix.mp active).1),
        fun row held => inv.keepsBut_deleted found held⟩

theorem SendInv.of_same (tables : after.tables = world.tables)
    (waiting : after.waiting = world.waiting)
    (futures : ∀ other ∈ after.futures, other ∈ world.futures) :
    QueueInv after ∧ Covered after ∧ Keeps world after := by
  refine ⟨inv.queue.of_subset (by rw [tables])
    (fun msg member _ => waiting ▸ member) (fun row held => ?_),
    fun other member row active starts => ?_, fun row held => tables ▸ held⟩
  · exact .inl (tables ▸ held)
  · rw [tables] at active
    exact inv.covered other (futures other member) row active starts

theorem SendInv.failed
    (answered : SenderWorld.handleResponseErr txn.dest (world.take index) =
      some after) : QueueInv after ∧ Covered after ∧ Keeps world after := by
  have fewer : ∀ other ∈ (world.take index).futures, other ∈ world.futures :=
    fun other => mem_of_mem_eraseIdx
  unfold SenderWorld.handleResponseErr at answered
  split at answered
  · cases answered
    exact inv.of_same rfl rfl fewer
  · cases answered
    exact inv.of_same rfl rfl fewer
  · cases answered
    exact inv.of_same rfl rfl fewer
  · cases answered

theorem SendInv.finished (found : world.futures[index]? = some txn)
    (success : Bool) :
    QueueInv ((world.take index).finishResponse txn success) ∧
      Covered ((world.take index).finishResponse txn success) ∧
      (if success = true then KeepsBut txn world
          ((world.take index).finishResponse txn success)
        else Keeps world ((world.take index).finishResponse txn success)) := by
  unfold SenderWorld.finishResponse
  cases success with
  | true =>
      exact ⟨inv.queue.of_subset rfl (fun other member _ => member)
          (fun row held => .inl (held_of_deleted held)),
        inv.covered_take index
          (fun row active => (mem_erasePrefix.mp active).1),
        fun row held => inv.keepsBut_deleted found held⟩
  | false => exact inv.of_same rfl rfl (fun other => mem_of_mem_eraseIdx)

end

end

section

open SenderWorld

theorem foldl_add {config : SenderConfig}
    (keep : config.startupNetburstKeep < 0)
    (rows : List (QueueItem × Destination)) (burst : Netburst) :
    rows.foldl (Netburst.add config) burst = {
      tables := burst.tables
      txns := fun dest => burst.txns dest ++
        (rows.filter (fun row => row.2 = dest)).map Prod.fst } := by
  induction rows generalizing burst with
  | nil => simp
  | cons row rest ih =>
      rw [foldl_cons, ih]
      unfold Netburst.add
      simp only
      rw [if_neg (by omega)]
      congr 1
      funext dest
      by_cases same : row.2 = dest
      · subst same
        simp
      · simp only
        rw [Function.update_of_ne (Ne.symm same),
          filter_cons_of_neg (by simpa using same)]

theorem SendInv.booted {world : SenderWorld} (inv : SendInv world)
    {config : SenderConfig} (keep : config.startupNetburstKeep < 0)
    (now : Nat) :
    QueueInv (boot config world.tables now) ∧
      Covered (boot config world.tables now) ∧
      Keeps world (boot config world.tables now) := by
  unfold boot startupNetburst
  simp only
  rw [foldl_add keep]
  simp only [nil_append]
  obtain ⟨tables, waiting, futures⟩ := burstAll_same
    (fun dest => (world.tables.activeRequests.filter
      (fun row => row.2 = dest)).map Prod.fst)
    (world.tables.activeRequests.map Prod.snd).dedup {
      config
      tables := world.tables
      waiting := []
      statuses := fun _ => none
      futures := []
      now
      stopping := false }
  refine ⟨inv.queue.of_subset (by rw [tables]) (fun msg member _ => ?_)
    (fun row held => ?_), fun txn member row active starts => ?_,
    fun row held => ?_⟩
  · rw [waiting] at member
    cases member
  · rw [tables] at held
    exact .inl held
  · rw [tables] at active
    obtain ⟨item, read, _⟩ := inv.queue.readRow (.inl (.inr active)) starts
    refine ⟨item, ?_, read⟩
    rw [(futures txn member).resolve_left not_mem_nil]
    refine mem_map.mpr ⟨(item, txn.dest), mem_filter.mpr ⟨?_, ?_⟩, rfl⟩
    · exact mem_filterMap.mpr ⟨row, active, read⟩
    · simp
  · rw [tables]
    exact held

end

section

variable {world : SenderWorld}

def Item (world : SenderWorld) (dest : Destination) (item : QueueItem) :
    Prop :=
  Named world.tables.counter dest item.1 item.2

variable {txn : Transaction}

theorem Item.contained {dest : Destination} {item : QueueItem}
    (isItem : Item world dest item) (covers : Covers txn (rowOf item)) :
    txn.dest = dest ∧ item ∈ txn.events := by
  obtain ⟨found, inside, read⟩ := covers
  have own : readRow (rowOf item) = some (item, dest) := isItem.readRow
  rw [own] at read
  obtain ⟨rfl, rfl⟩ := Prod.mk.inj (Option.some.inj read)
  exact ⟨rfl, inside⟩

/-- What a step does to the invariant and to the items that are held. -/
structure Advances (world after : SenderWorld) (action : SenderAction) :
    Prop where
  queue : QueueInv after
  covered : Covered after
  grows : world.tables.counter ≤ after.tables.counter
  keeps : ∀ dest item, Item world dest item → Held world.tables (rowOf item) →
    Held after.tables (rowOf item) ∨ Settled world dest item action

variable {action : SenderAction}

theorem Advances.of_keeps {after : SenderWorld}
    (grows : world.tables.counter ≤ after.tables.counter)
    (kept : QueueInv after ∧ Covered after ∧ Keeps world after) :
    Advances world after action :=
  ⟨kept.1, kept.2.1, grows, fun _ _ _ held => .inl (kept.2.2 _ held)⟩

theorem SendInv.queueing (inv : SendInv world) {event : SendingEvent}
    {dests : List Destination} (isQueued : event ≠ .flush)
    (enough : ∀ buf, event = .edu buf →
      world.tables.counter + dests.length < 2 ^ 64) :
    Advances world (SenderWorld.sendTo event dests world) action := by
  have queued := sendTo_queued isQueued inv.queue.small enough
  refine .of_keeps queued.grows ⟨queued.queueInv inv.queue, ?_,
    fun row held => queued.held inv.queue held⟩
  intro txn member row active starts
  rw [queued.active] at active
  rw [queued.futures] at member
  exact inv.covered txn member row active starts

theorem SendInv.deleted (inv : SendInv world) {dest : Destination}
    (settles : ∀ item, Settled world dest item action) :
    Advances world
      { world with tables := world.tables.deleteAllRequestsFor dest }
      action where
  queue := inv.queue.of_subset rfl (fun msg member _ => member)
    (fun row held => .inl (held_deleteAllRequestsFor.mp held).1)
  covered txn member row active starts :=
    inv.covered txn member row (mem_erasePrefix.mp active).1 starts
  grows := le_rfl
  keeps other item isItem held := by
    by_cases starts : dest.getPrefix <+: item.1
    · have same : dest = other := isItem.dest_eq starts
      exact .inr (same ▸ settles item)
    · exact .inl (held_deleteAllRequestsFor.mpr ⟨held, starts⟩)

theorem SendInv.cleaned (inv : SendInv world)
    (appserviceId userId pushKey : Option Utf8) :
    Advances world (world.cleanupEvents appserviceId userId pushKey)
      (.cleanupEvents appserviceId userId pushKey) := by
  unfold SenderWorld.cleanupEvents
  split
  next userId pushKey =>
    exact inv.deleted (fun item => .pusherDeleted userId pushKey rfl)
  next appserviceId =>
    exact inv.deleted (fun item => .appserviceDeleted appserviceId rfl)
  · exact .of_keeps le_rfl ⟨inv.queue, inv.covered, fun row held => held⟩

theorem counter_handleResponseOk (dest : Destination) (world : SenderWorld) :
    (world.handleResponseOk dest).tables.counter = world.tables.counter := by
  have answered := world.handleResponseOk_cases dest
  generalize world.handleResponseOk dest = after at answered
  cases answered with
  | drained | done => rfl

theorem counter_handleRequest (msg : Msg)
    (edus : Option (List EduBuf × Nat)) (world : SenderWorld) :
    (world.handleRequest msg edus).tables.counter = world.tables.counter := by
  have requested := world.handleRequest_cases msg edus
  generalize world.handleRequest msg edus = after at requested
  cases requested with
  | refused | retried | nothingLeft | started => rfl

theorem tables_boot (config : SenderConfig) (tables : Tables) (now : Nat)
    (keep : config.startupNetburstKeep < 0) :
    (SenderWorld.boot config tables now).tables = tables := by
  unfold SenderWorld.boot SenderWorld.startupNetburst
  simp only
  rw [foldl_add keep]
  exact (burstAll_same _ _ _).1

theorem SendInv.flushed (inv : SendInv world) (servers : List OwnedServerName) :
    Advances world (world.flushServers servers) action := by
  unfold SenderWorld.flushServers SenderWorld.dispatch
  split
  · exact .of_keeps le_rfl ⟨inv.queue, inv.covered, fun row held => held⟩
  · refine .of_keeps le_rfl ⟨inv.queue.of_subset rfl
      (fun msg member notEmpty => ?_) (fun row held => .inl held),
      inv.covered, fun row held => held⟩
    refine (mem_append.mp member).resolve_right (fun new => ?_)
    obtain ⟨server, _, rfl⟩ := mem_map.mp new
    exact notEmpty rfl

theorem Advances.of_keepsBut {after : SenderWorld}
    (grows : world.tables.counter ≤ after.tables.counter)
    (kept : QueueInv after ∧ Covered after ∧ KeepsBut txn world after)
    (settles : ∀ dest item, txn.dest = dest ∧ item ∈ txn.events →
      Settled world dest item action) : Advances world after action :=
  ⟨kept.1, kept.2.1, grows, fun dest item isItem held =>
    (kept.2.2 _ held).imp_right
      (fun covers => settles dest item (isItem.contained covers))⟩

theorem SendInv.handledResponse (inv : SendInv world) {index : Nat}
    (going : world.stopping = false) (found : world.futures[index]? = some txn)
    (success : Bool) :
    Advances world ((world.take index).handleResponse txn success).1
      (.handleResponse index success) := by
  unfold SenderWorld.handleResponse
  cases success with
  | true =>
      simp only [if_true]
      have same := counter_handleResponseOk txn.dest (world.take index)
      exact .of_keepsBut (le_of_eq same.symm) (inv.responded found)
        (fun _ _ contains =>
          .answered txn (.responded index going found) contains)
  | false =>
      simp only [Bool.false_eq_true, if_false]
      split
      next after answered =>
        have same : after.tables = world.tables := by
          unfold SenderWorld.handleResponseErr at answered
          split at answered
          · cases answered
            rfl
          · cases answered
            rfl
          · cases answered
            rfl
          · cases answered
        exact .of_keeps (le_of_eq (by rw [same])) (inv.failed answered)
      · exact .of_keeps le_rfl
          (inv.of_same rfl rfl (fun other => mem_of_mem_eraseIdx))

theorem SendInv.finishedResponse (inv : SendInv world) {index : Nat}
    (stopped : world.stopping = true) (found : world.futures[index]? = some txn)
    (success : Bool) :
    Advances world ((world.take index).finishResponse txn success)
      (.finishResponse index success) := by
  obtain ⟨queue, covered, kept⟩ := inv.finished found success
  cases success with
  | true =>
      exact .of_keepsBut le_rfl ⟨queue, covered, kept⟩
        (fun _ _ contains =>
          .answered txn (.finished index stopped found) contains)
  | false => exact .of_keeps le_rfl ⟨queue, covered, kept⟩

theorem SendInv.advances (inv : SendInv world) (action : SenderAction)
    (orderly : world.orderly action = true) :
    Advances world (world.step action).1 action := by
  have stays : Advances world world action :=
    .of_keeps le_rfl ⟨inv.queue, inv.covered, fun row held => held⟩
  cases action with
  | sendPdu id dests =>
      exact inv.queueing (fun same => by cases same)
        (fun buf same => by cases same)
  | sendEdu buf dests =>
      exact inv.queueing (fun same => by cases same)
        (fun _ _ => of_decide_eq_true orderly)
  | flushServers servers => exact inv.flushed servers
  | cleanupEvents appserviceId userId pushKey =>
      exact inv.cleaned appserviceId userId pushKey
  | handleRequest index edus =>
      rcases world.step_handleRequest index edus with same | present
      · rw [same]
        exact stays
      · obtain ⟨msg, going, found, result⟩ := present
        have same := counter_handleRequest msg edus
          { world with waiting := world.waiting.eraseIdx index }
        rw [result]
        exact .of_keeps (le_of_eq same.symm) (inv.requested going found
            (SenderWorld.clean_of_orderly orderly found)
            (SenderWorld.handleRequest_cases _ msg edus))
  | handleResponse index success =>
      rcases world.step_handleResponse index success with same | present
      · rw [same]
        exact stays
      · obtain ⟨txn, going, found, result⟩ := present
        rw [result]
        exact inv.handledResponse going found success
  | wait duration | stop =>
      exact .of_keeps le_rfl (inv.of_same rfl rfl (fun _ member => member))
  | finishResponse index success =>
      rcases world.step_finishResponse index success with same | present
      · rw [same]
        exact stays
      · obtain ⟨txn, stopped, found, result⟩ := present
        rw [result]
        exact inv.finishedResponse stopped found success
  | restart config =>
      have keep : config.startupNetburstKeep < 0 := of_decide_eq_true orderly
      have same := tables_boot config world.tables world.now keep
      exact .of_keeps (le_of_eq (congrArg counter same).symm)
        (inv.booted keep world.now)

end

structure Tables.Fresh (tables : Tables) : Prop where
  queued : tables.servernameeventData = .empty
  active : tables.servercurrenteventData = .empty
  small : tables.counter < 2 ^ 64

theorem Tables.Fresh.sendInv {tables : Tables} (fresh : tables.Fresh)
    (config : SenderConfig) (now : Nat) :
    SendInv (.boot config tables now) := by
  have none_ : ∀ row, ¬ Held tables row := by
    intro row held
    unfold Held at held
    rw [fresh.queued, fresh.active] at held
    exact held.elim not_mem_empty not_mem_empty
  have same : SenderWorld.boot config tables now = {
      config, tables, waiting := [], statuses := fun _ => none, futures := [],
      now, stopping := false } := by
    unfold SenderWorld.boot SenderWorld.startupNetburst activeRequests
    simp only
    rw [fresh.active]
    rfl
  have unknown : ∀ row, ¬ Known (.boot config tables now) row := by
    rw [same]
    rintro row (held | ⟨msg, member, _⟩)
    · exact none_ row held
    · cases member
  refine ⟨boot_loopInv config tables now, ⟨?_, ?_, ?_, ?_⟩, ?_⟩
  · rw [same]
    exact fresh.small
  · exact fun row known => absurd known (unknown row)
  · rw [same]
    exact fun msg member => by cases member
  · exact fun row _ known => absurd known (unknown row)
  · rw [same]
    exact fun txn member => by cases member

section

variable {world : SenderWorld}
  {history : List (Entry SenderWorld SenderAction SenderOutcome)}

theorem SendInv.queuedBy (inv : SendInv world) {action : SenderAction}
    (orderly : world.orderly action = true) {queued : Destination × QueueItem}
    (member : queued ∈ world.queuedBy action) :
    Item (world.step action).1 queued.1 queued.2 ∧
      Held (world.step action).1.tables (rowOf queued.2) := by
  have holds : ∀ {event : SendingEvent} {dests : List Destination},
      event ≠ .flush → (∀ buf, event = .edu buf →
        world.tables.counter + dests.length < 2 ^ 64) →
      queued ∈ world.queuedItems event dests →
      Item (SenderWorld.sendTo event dests world) queued.1 queued.2 ∧
        Held (SenderWorld.sendTo event dests world).tables
          (rowOf queued.2) := by
    intro event dests isQueued enough listed
    have sent := sendTo_queued isQueued inv.queue.small enough
    obtain ⟨request, inside, rfl⟩ := mem_map.mp listed
    exact ⟨(sent.each request inside).1, sent.held_new inside⟩
  cases action with
  | sendPdu id dests =>
      exact holds (fun same => by cases same) (fun buf same => by cases same)
        member
  | sendEdu buf dests =>
      exact holds (fun same => by cases same)
        (fun _ _ => of_decide_eq_true orderly) member
  | _ => cases member

theorem nothingLost_of_orderly {config : SenderConfig} {tables : Tables}
    {now : Nat} (fresh : tables.Fresh)
    (reaches : Reaches SenderWorld.step (.boot config tables now) history world)
    (orderly : ∀ entry ∈ history, entry.before.orderly entry.input = true) :
    NothingLost history world := by
  have holds : SendInv world ∧ ∀ earlier entry later,
      history = earlier ++ entry :: later →
      ∀ queued ∈ entry.before.queuedBy entry.input,
        Item world queued.1 queued.2 ∧ (Held world.tables (rowOf queued.2) ∨
          ∃ after ∈ later,
            Settled after.before queued.1 queued.2 after.input) := by
    refine Reaches.invariant (fun history world => SendInv world ∧
      ∀ earlier entry later, history = earlier ++ entry :: later →
        ∀ queued ∈ entry.before.queuedBy entry.input,
          Item world queued.1 queued.2 ∧
            (Held world.tables (rowOf queued.2) ∨ ∃ after ∈ later,
              Settled after.before queued.1 queued.2 after.input))
      ⟨fresh.sendInv config now, ?_⟩ ?_ reaches
      (Always.of_forall_mem orderly)
    · intro earlier entry later split
      simp at split
    · rintro history world action ⟨inv, kept⟩ orderly
      have advances := inv.advances action orderly
      refine ⟨⟨(inv.loop.step action).1, advances.queue, advances.covered⟩, ?_⟩
      intro earlier entry later split queued member
      rcases snoc_split split with isLast | isEarlier
      · obtain ⟨_, rfl, rfl⟩ := isLast
        obtain ⟨isItem, held⟩ := inv.queuedBy orderly member
        exact ⟨isItem, .inl held⟩
      · obtain ⟨rest, rfl, same⟩ := isEarlier
        obtain ⟨isItem, safe⟩ := kept earlier entry rest same queued member
        refine ⟨isItem.mono advances.grows, ?_⟩
        rcases safe with held | settled
        · refine (advances.keeps _ _ isItem held).imp_right (fun settled => ?_)
          exact ⟨_, mem_append_right _ mem_cons_self, settled⟩
        · obtain ⟨after, inside, settles⟩ := settled
          exact .inr ⟨after, mem_append_left _ inside, settles⟩
  exact fun earlier entry later split queued member =>
    (holds.2 earlier entry later split queued member).2

end

namespace OneServer

theorem noTables_fresh : noTables.Fresh := ⟨rfl, rfl, by decide⟩

def restarted (startupNetburst : Bool) : List SenderAction :=
  [.sendPdu (pduId 1) [dest], .handleRequest 0 none,
    .restart (config startupNetburst), .sendPdu (pduId 2) [dest],
    .handleRequest 0 none, .handleResponse 0 true]

theorem burst_nothingLost :
    (run SenderWorld.step (start true) (restarted true)).2.inFlight = [dest] ∧
      NothingLost (run SenderWorld.step (start true) (restarted true)).1
        (run SenderWorld.step (start true) (restarted true)).2 := by
  refine ⟨by decide +kernel, nothingLost_of_orderly noTables_fresh
    (reaches_run _ _ _) ?_⟩
  decide +kernel

def maySettle (item : QueueItem)
    (entry : Entry SenderWorld SenderAction SenderOutcome) : Bool :=
  match entry.input with
  | .handleResponse index _ => (entry.before.futures[index]?).any
      (fun txn => item ∈ txn.events)
  | .finishResponse index _ => (entry.before.futures[index]?).any
      (fun txn => item ∈ txn.events)
  | .cleanupEvents _ _ _ => true
  | _ => false

theorem maySettle_of_settled {dest : Destination} {item : QueueItem}
    {entry : Entry SenderWorld SenderAction SenderOutcome}
    (settled : Settled entry.before dest item entry.input) :
    maySettle item entry = true := by
  obtain ⟨before, input, output⟩ := entry
  cases settled with
  | answered txn answers contains =>
      cases answers with
      | responded index going found
      | finished index stopped found => simp [maySettle, found, contains.2]
  | pusherDeleted | appserviceDeleted => rfl

def dropsNothing : SenderAction → Bool
  | .restart config => config.startupNetburstKeep < 0
  | _ => true

/-- Without the burst the answer to the second transaction deletes the row of
the first PDU. -/
theorem noBurst_lost :
    (run SenderWorld.step (start false) (restarted false)).1.all
        (fun entry => dropsNothing entry.input) = true ∧
      ¬ ∀ config tables now world history, Tables.Fresh tables →
        Reaches SenderWorld.step (.boot config tables now) history world →
        history.all (fun entry => dropsNothing entry.input) = true →
        NothingLost history world := by
  have drops : (run SenderWorld.step (start false) (restarted false)).1.all
      (fun entry => dropsNothing entry.input) = true := by decide +kernel
  refine ⟨drops, fun all => ?_⟩
  have kept := all _ _ _ _ _ noTables_fresh (reaches_run _ _ _) drops
  have unsettled : ∀ entry ∈
      (run SenderWorld.step (start false) (restarted false)).1.tail,
      maySettle (dest.getPrefix ++ (pduId 1).bytes, .pdu (pduId 1)) entry =
        false := by decide +kernel
  have lost := kept [] _ _ rfl
    (dest, (dest.getPrefix ++ (pduId 1).bytes, .pdu (pduId 1)))
    (by decide +kernel)
  rcases lost with held | settled
  · exact absurd held (by unfold Held; decide +kernel)
  · obtain ⟨after, member, settles⟩ := settled
    have may := maySettle_of_settled settles
    rw [unsettled after member] at may
    cases may

end OneServer

end ArcanaServer.Sending
