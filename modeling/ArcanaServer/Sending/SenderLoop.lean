import ArcanaServer.Library.Trace
import ArcanaServer.Sending.Queue
import Mathlib.Data.List.Dedup
import Mathlib.Data.List.Perm.Basic

namespace ArcanaServer.Sending

open Library List

def isBusy : Option TransactionStatus → Bool
  | some .running => true
  | some (.retrying _) => true
  | some (.failed _ _) => false
  | none => false

namespace SenderWorld

def inFlight (world : SenderWorld) : List Destination :=
  world.futures.map Transaction.dest

inductive Requested (world : SenderWorld) (msg : Msg) : SenderWorld → Prop
  | refused (known : world.statuses msg.dest ≠ none) : Requested world msg world
  | retried (tries time : Nat)
      (failed : world.statuses msg.dest = some (.failed tries time)) :
      Requested world msg
        ((world.setStatus msg.dest (some (.retrying tries))).sendEvents
          msg.dest (world.tables.activeRequestsFor msg.dest))
  | nothingLeft (tries time : Nat)
      (failed : world.statuses msg.dest = some (.failed tries time))
      (nothing : world.tables.activeRequestsFor msg.dest = []) :
      Requested world msg
        ((world.setStatus msg.dest (some (.retrying tries))).setStatus
          msg.dest none)
  | started (servernameEducount : OwnedServerName → Option Nat)
      (edus : List QueueItem) (noKeys : ∀ edu ∈ edus, edu.1 = [])
      (unknown : world.statuses msg.dest = none) :
      Requested world msg
        (sendEvents { world.setStatus msg.dest (some .running) with
          tables := { world.tables.markAsActive [(msg.queueId, msg.event)] with
            servernameEducount } } msg.dest ((msg.queueId, msg.event) :: edus))

section

variable {world : SenderWorld} {dest : Destination}

theorem selectEventsCurrent_of_none (unknown : world.statuses dest = none) :
    world.selectEventsCurrent dest =
      ((true, false), world.setStatus dest (some .running)) := by
  unfold selectEventsCurrent
  rw [unknown]

theorem selectEventsCurrent_of_failed {tries time : Nat}
    (failed : world.statuses dest = some (.failed tries time)) :
    world.selectEventsCurrent dest = ((false, false), world) ∨
      world.selectEventsCurrent dest =
        ((true, true), world.setStatus dest (some (.retrying tries))) := by
  unfold selectEventsCurrent
  rw [failed]
  simp only
  split
  · exact .inl rfl
  · exact .inr rfl

theorem selectEventsCurrent_of_busy
    (busy : isBusy (world.statuses dest) = true) :
    world.selectEventsCurrent dest = ((false, false), world) := by
  unfold selectEventsCurrent
  cases known : world.statuses dest with
  | none =>
      rw [known] at busy
      cases busy
  | some status =>
      cases status with
      | running | retrying tries => rfl
      | failed tries time =>
          rw [known] at busy
          cases busy

theorem handleRequest_refused {msg : Msg} (edus : Option (List EduBuf × Nat))
    (current : world.selectEventsCurrent msg.dest = ((false, false), world)) :
    handleRequest msg edus world = world := by
  unfold handleRequest selectEvents
  rw [current]
  rfl

variable {msg : Msg} {after : SenderWorld} (edus : Option (List EduBuf × Nat))

theorem handleRequest_retried
    (current : world.selectEventsCurrent msg.dest = ((true, true), after)) :
    handleRequest msg edus world =
      if after.tables.activeRequestsFor msg.dest = [] then
        after.setStatus msg.dest none
      else after.sendEvents msg.dest
        (after.tables.activeRequestsFor msg.dest) := by
  unfold handleRequest selectEvents
  rw [current]
  simp only [Bool.not_true, Bool.false_eq_true, if_false, if_true]
  cases after.tables.activeRequestsFor msg.dest with
  | nil | cons event rest => simp

theorem handleRequest_started
    (current : world.selectEventsCurrent msg.dest = ((true, false), after)) :
    ∃ servernameEducount events, (∀ edu ∈ events, (edu : QueueItem).1 = []) ∧
      handleRequest msg edus world = sendEvents { after with
        tables := { after.tables.markAsActive [(msg.queueId, msg.event)] with
          servernameEducount } } msg.dest
        ((msg.queueId, msg.event) :: events) := by
  unfold handleRequest selectEvents
  rw [current]
  simp only [Bool.not_true, Bool.false_eq_true, if_false]
  cases msg.dest with
  | appservice id | push user pushkey => exact ⟨_, [], forall_mem_nil _, rfl⟩
  | federation server =>
      cases edus with
      | none => exact ⟨_, [], forall_mem_nil _, rfl⟩
      | some found =>
          refine ⟨_, found.1.map (fun edu => ([], .edu edu)), ?_, rfl⟩
          intro edu member
          obtain ⟨buf, _, rfl⟩ := mem_map.mp member
          rfl

theorem handleRequest_cases (world : SenderWorld) (msg : Msg)
    (edus : Option (List EduBuf × Nat)) :
    Requested world msg (handleRequest msg edus world) := by
  cases known : world.statuses msg.dest with
  | none =>
      obtain ⟨educount, events, noKeys, result⟩ :=
        handleRequest_started edus (selectEventsCurrent_of_none known)
      rw [result]
      exact .started educount events noKeys known
  | some status =>
      have noted : world.statuses msg.dest ≠ none := by simp [known]
      cases status with
      | running | retrying tries =>
          rw [handleRequest_refused edus
            (selectEventsCurrent_of_busy (by rw [known]; rfl))]
          exact .refused noted
      | failed tries time =>
          rcases selectEventsCurrent_of_failed known with current | current
          · rw [handleRequest_refused edus current]
            exact .refused noted
          · rw [handleRequest_retried edus current]
            split
            next nothing => exact .nothingLeft tries time known nothing
            · exact .retried tries time known

end

inductive Answered (world : SenderWorld) (dest : Destination) :
    SenderWorld → Prop
  | drained (newEvents : List QueueItem) (notEmpty : newEvents ≠ [])
      (queued : newEvents =
        (world.tables.queuedRequests dest).take dequeueLimit) :
      Answered world dest (sendEvents { world with
        tables := (world.tables.deleteAllActiveRequestsFor dest).markAsActive
          newEvents } dest newEvents)
  | done : Answered world dest (setStatus { world with
      tables := world.tables.deleteAllActiveRequestsFor dest } dest none)

theorem handleResponseOk_cases (world : SenderWorld) (dest : Destination) :
    Answered world dest (handleResponseOk dest world) := by
  unfold handleResponseOk
  simp only
  split
  next notEmpty => exact .drained _ (by simpa using notEmpty) rfl
  · exact .done

end SenderWorld

namespace SenderWorld

variable (world : SenderWorld) (index : Nat)

theorem step_handleRequest (edus : Option (List EduBuf × Nat)) :
    world.step (.handleRequest index edus) = (world, .handled) ∨
      ∃ msg, world.stopping = false ∧ world.waiting[index]? = some msg ∧
        world.step (.handleRequest index edus) =
          ({ world with waiting := world.waiting.eraseIdx index }.handleRequest
            msg edus, .handled) := by
  simp only [step]
  split
  next msg going found => exact .inr ⟨msg, going, found, rfl⟩
  · exact .inl rfl

theorem step_handleResponse (success : Bool) :
    world.step (.handleResponse index success) = (world, .handled) ∨
      ∃ txn, world.stopping = false ∧ world.futures[index]? = some txn ∧
        world.step (.handleResponse index success) =
          (world.take index).handleResponse txn success := by
  simp only [step]
  split
  next txn going found => exact .inr ⟨txn, going, found, rfl⟩
  · exact .inl rfl

theorem step_finishResponse (success : Bool) :
    world.step (.finishResponse index success) = (world, .handled) ∨
      ∃ txn, world.stopping = true ∧ world.futures[index]? = some txn ∧
        world.step (.finishResponse index success) =
          ((world.take index).finishResponse txn success, .handled) := by
  simp only [step]
  split
  next txn stopped found => exact .inr ⟨txn, stopped, found, rfl⟩
  · exact .inl rfl

end SenderWorld

structure LoopInv (world : SenderWorld) : Prop where
  oneEach : world.inFlight.Nodup
  busy : world.stopping = false → ∀ dest,
    dest ∈ world.inFlight ↔ isBusy (world.statuses dest) = true

/-- All is well but for the status of a destination that has no transaction in
flight. -/
structure Free (world : SenderWorld) (dest : Destination) : Prop where
  oneEach : world.inFlight.Nodup
  gone : dest ∉ world.inFlight
  others : world.stopping = false → ∀ other, other ≠ dest →
    (other ∈ world.inFlight ↔ isBusy (world.statuses other) = true)

namespace Free

variable {world : SenderWorld} {dest : Destination}

section

variable (free : Free world dest)
include free

theorem setStatus (status : Option TransactionStatus) :
    Free (world.setStatus dest status) dest where
  oneEach := free.oneEach
  gone := free.gone
  others going other differs := by
    have same : (world.setStatus dest status).statuses other =
        world.statuses other := Function.update_of_ne differs _ _
    rw [same]
    exact free.others going other differs

theorem onTables {tables : Tables} : Free { world with tables } dest :=
  ⟨free.oneEach, free.gone, free.others⟩

theorem sendEvents (busy : isBusy (world.statuses dest) = true)
    (events : List QueueItem) : LoopInv (world.sendEvents dest events) := by
  have flight : (world.sendEvents dest events).inFlight =
      world.inFlight ++ [dest] := by
    simp [SenderWorld.inFlight, SenderWorld.sendEvents]
  refine ⟨?_, fun going other => ?_⟩
  · rw [flight, nodup_append]
    refine ⟨free.oneEach, nodup_singleton dest, ?_⟩
    rintro other member _ isDest rfl
    rw [mem_singleton.mp isDest] at member
    exact free.gone member
  · rw [flight, mem_append, mem_singleton]
    by_cases same : other = dest
    · subst same
      exact iff_of_true (.inr rfl) busy
    · rw [or_iff_left same]
      exact free.others going other same

theorem loopInv (idle : isBusy (world.statuses dest) = false) :
    LoopInv world where
  oneEach := free.oneEach
  busy going other := by
    by_cases same : other = dest
    · subst same
      exact iff_of_false free.gone (by simp [idle])
    · exact free.others going other same

end

end Free

namespace LoopInv

variable {world : SenderWorld} {dest : Destination}

theorem free (inv : LoopInv world) (going : world.stopping = false)
    (idle : isBusy (world.statuses dest) = false) : Free world dest where
  oneEach := inv.oneEach
  gone member := by
    have busy := (inv.busy going dest).mp member
    rw [idle] at busy
    cases busy
  others going other _ := inv.busy going other

theorem of_unchanged {after : SenderWorld} (inv : LoopInv world)
    (futures : after.futures = world.futures)
    (statuses : after.statuses = world.statuses)
    (stopping : world.stopping = after.stopping ∨ after.stopping = true) :
    LoopInv after where
  oneEach := by
    unfold SenderWorld.inFlight
    rw [futures]
    exact inv.oneEach
  busy going other := by
    have before : world.stopping = false := by
      rcases stopping with same | stopped
      · exact same.trans going
      · rw [stopped] at going
        cases going
    unfold SenderWorld.inFlight
    rw [futures, statuses]
    exact inv.busy before other

theorem handleRequest (inv : LoopInv world) (going : world.stopping = false)
    {msg : Msg} {after : SenderWorld}
    (requested : world.Requested msg after) : LoopInv after := by
  cases requested with
  | refused => exact inv
  | retried tries time failed =>
      have free := inv.free going (by rw [failed]; rfl)
      refine (free.setStatus _).sendEvents ?_ _
      simp [SenderWorld.setStatus, isBusy]
  | nothingLeft tries time failed =>
      have free := inv.free going (by rw [failed]; rfl)
      refine ((free.setStatus _).setStatus _).loopInv ?_
      simp [SenderWorld.setStatus, isBusy]
  | started educount edus noKeys unknown =>
      have free := (inv.free going (by rw [unknown]; rfl)).setStatus
        (some .running)
      exact free.onTables.sendEvents (by simp [SenderWorld.setStatus, isBusy]) _

theorem take (inv : LoopInv world) {index : Nat} {txn : Transaction}
    (found : world.futures[index]? = some txn) :
    Free (world.take index) txn.dest ∧ (world.stopping = false →
        isBusy ((world.take index).statuses txn.dest) = true) := by
  obtain ⟨inside, isTxn⟩ := List.getElem?_eq_some_iff.mp found
  have perm : (txn.dest :: (world.take index).inFlight).Perm
      world.inFlight := by
    have erased := getElem_cons_eraseIdx_perm inside
    rw [isTxn] at erased
    exact erased.map Transaction.dest
  have nodup := perm.nodup_iff.mpr inv.oneEach
  rw [nodup_cons] at nodup
  refine ⟨⟨nodup.2, nodup.1, fun going other differs => ?_⟩, fun going => ?_⟩
  · refine Iff.trans ?_ (inv.busy going other)
    rw [← perm.mem_iff, mem_cons, or_iff_right differs]
  · exact (inv.busy going txn.dest).mp (perm.mem_iff.mp mem_cons_self)

end LoopInv

section

variable {world : SenderWorld} {txn : Transaction}

theorem handleResponse_handled
    (busy : isBusy (world.statuses txn.dest) = true) (success : Bool) :
    (world.handleResponse txn success).2 = .handled := by
  unfold SenderWorld.handleResponse SenderWorld.handleResponseErr
  cases success with
  | true => rfl
  | false =>
      cases known : world.statuses txn.dest with
      | none => rfl
      | some status =>
          cases status with
          | running | retrying tries => rfl
          | failed tries time =>
              rw [known] at busy
              cases busy

theorem Free.handleResponse (free : Free world txn.dest)
    (busy : isBusy (world.statuses txn.dest) = true) (success : Bool) :
    LoopInv (world.handleResponse txn success).1 := by
  unfold SenderWorld.handleResponse
  cases success with
  | true =>
      have answered := world.handleResponseOk_cases txn.dest
      simp only [if_true]
      generalize world.handleResponseOk txn.dest = after at answered
      cases answered with
      | drained newEvents =>
          have drained : Free { world with
              tables := (world.tables.deleteAllActiveRequestsFor
                txn.dest).markAsActive newEvents } txn.dest := free.onTables
          exact drained.sendEvents busy newEvents
      | done =>
          exact (free.onTables.setStatus none).loopInv
            (by simp [SenderWorld.setStatus, isBusy])
  | false =>
      simp only [Bool.false_eq_true, if_false]
      unfold SenderWorld.handleResponseErr
      cases known : world.statuses txn.dest with
      | none =>
          rw [known] at busy
          cases busy
      | some status =>
          cases status with
          | running | retrying tries =>
              exact (free.setStatus _).loopInv
                (by simp [SenderWorld.setStatus, isBusy])
          | failed tries time =>
              rw [known] at busy
              cases busy

end

section

open SenderWorld

variable {txns : Destination → List QueueItem}

theorem LoopInv.burstTo {world : SenderWorld} (inv : LoopInv world)
    (going : world.stopping = false) {dest : Destination}
    (unknown : world.statuses dest = none) :
    LoopInv (burstTo txns world dest) := by
  unfold SenderWorld.burstTo
  split
  · have free := inv.free going (by rw [unknown]; rfl)
    refine (free.setStatus (some .running)).sendEvents ?_ _
    simp [SenderWorld.setStatus, isBusy]
  · exact inv

theorem burstTo_stopping (world : SenderWorld) (dest : Destination) :
    (burstTo txns world dest).stopping = world.stopping := by
  unfold burstTo
  split
  · rfl
  · rfl

theorem burstTo_statuses {world : SenderWorld} {dest other : Destination}
    (differs : other ≠ dest) :
    (burstTo txns world dest).statuses other = world.statuses other := by
  unfold burstTo
  split
  · exact Function.update_of_ne differs _ _
  · rfl

theorem LoopInv.burstAll {dests : List Destination} {world : SenderWorld}
    (inv : LoopInv world) (going : world.stopping = false)
    (distinct : dests.Nodup)
    (unknown : ∀ dest ∈ dests, world.statuses dest = none) :
    LoopInv (dests.foldl (SenderWorld.burstTo txns) world) := by
  induction dests generalizing world with
  | nil => exact inv
  | cons dest rest ih =>
      rw [nodup_cons] at distinct
      have first : LoopInv (SenderWorld.burstTo txns world dest) :=
        inv.burstTo going (unknown dest mem_cons_self)
      refine ih first ((burstTo_stopping world dest).trans going) distinct.2
        (fun other member => ?_)
      have differs : other ≠ dest := by
        rintro rfl
        exact distinct.1 member
      rw [burstTo_statuses differs]
      exact unknown other (mem_cons_of_mem _ member)

theorem burstAll_same (txns : Destination → List QueueItem)
    (dests : List Destination) (world : SenderWorld) :
    (dests.foldl (burstTo txns) world).tables = world.tables ∧
      (dests.foldl (burstTo txns) world).waiting = world.waiting ∧
      ∀ txn ∈ (dests.foldl (burstTo txns) world).futures,
        txn ∈ world.futures ∨ txn.events = txns txn.dest := by
  induction dests generalizing world with
  | nil => exact ⟨rfl, rfl, fun txn member => .inl member⟩
  | cons dest rest ih =>
      have first : (burstTo txns world dest).tables = world.tables ∧
          (burstTo txns world dest).waiting = world.waiting ∧
          ∀ txn ∈ (burstTo txns world dest).futures,
            txn ∈ world.futures ∨ txn.events = txns txn.dest := by
        unfold burstTo
        split
        · refine ⟨rfl, rfl, fun txn member => ?_⟩
          refine (mem_append.mp member).imp_right (fun last => ?_)
          rw [mem_singleton.mp last]
        · exact ⟨rfl, rfl, fun txn member => .inl member⟩
      obtain ⟨tables, waiting, futures⟩ := ih (burstTo txns world dest)
      rw [foldl_cons]
      refine ⟨tables.trans first.1, waiting.trans first.2.1,
        fun txn member => ?_⟩
      exact (futures txn member).elim (first.2.2 txn) .inr

theorem boot_loopInv (config : SenderConfig) (tables : Tables) (now : Nat) :
    LoopInv (boot config tables now) := by
  refine LoopInv.burstAll ⟨nodup_nil, fun _ dest => ?_⟩ rfl
    (nodup_dedup _) (fun _ _ => rfl)
  exact iff_of_false not_mem_nil (by simp [isBusy])

end

section

open SenderWorld

variable {world : SenderWorld}

theorem LoopInv.dispatch (inv : LoopInv world) (msgs : List Msg) :
    LoopInv (dispatch msgs world) := by
  unfold SenderWorld.dispatch
  split
  · exact inv
  · exact inv.of_unchanged rfl rfl (.inl rfl)

theorem LoopInv.sendTo (inv : LoopInv world) (event : SendingEvent)
    (dests : List Destination) : LoopInv (sendTo event dests world) := by
  unfold SenderWorld.sendTo
  simp only
  refine LoopInv.dispatch ?_ _
  exact inv.of_unchanged rfl rfl (.inl rfl)

theorem LoopInv.cleanupEvents (inv : LoopInv world)
    (appserviceId userId pushKey : Option Utf8) :
    LoopInv (world.cleanupEvents appserviceId userId pushKey) := by
  unfold SenderWorld.cleanupEvents
  split
  · exact inv.of_unchanged rfl rfl (.inl rfl)
  · exact inv.of_unchanged rfl rfl (.inl rfl)
  · exact inv

theorem Free.finishResponse {txn : Transaction} (free : Free world txn.dest)
    (stopped : world.stopping = true) (success : Bool) :
    LoopInv (world.finishResponse txn success) := by
  have inv : LoopInv world := by
    refine ⟨free.oneEach, fun going => ?_⟩
    rw [stopped] at going
    cases going
  unfold SenderWorld.finishResponse
  split
  · exact inv.of_unchanged rfl rfl (.inl rfl)
  · exact inv

theorem LoopInv.step (inv : LoopInv world) (action : SenderAction) :
    LoopInv (world.step action).1 ∧ (world.step action).2 = .handled := by
  cases action with
  | sendPdu id dests | sendEdu buf dests => exact ⟨inv.sendTo _ dests, rfl⟩
  | flushServers servers => exact ⟨inv.dispatch _, rfl⟩
  | cleanupEvents appserviceId userId pushKey =>
      exact ⟨inv.cleanupEvents appserviceId userId pushKey, rfl⟩
  | handleRequest index edus =>
      rcases world.step_handleRequest index edus with same | found
      · rw [same]
        exact ⟨inv, rfl⟩
      · obtain ⟨msg, going, _, result⟩ := found
        have taken : LoopInv { world with
            waiting := world.waiting.eraseIdx index } :=
          inv.of_unchanged rfl rfl (.inl rfl)
        rw [result]
        exact ⟨taken.handleRequest going (handleRequest_cases _ msg edus), rfl⟩
  | handleResponse index success =>
      rcases world.step_handleResponse index success with same | present
      · rw [same]
        exact ⟨inv, rfl⟩
      · obtain ⟨txn, going, found, result⟩ := present
        obtain ⟨free, busy⟩ := inv.take found
        rw [result]
        exact ⟨free.handleResponse (busy going) success,
          handleResponse_handled (busy going) success⟩
  | wait duration =>
      exact ⟨inv.of_unchanged rfl rfl (.inl rfl), rfl⟩
  | stop => exact ⟨inv.of_unchanged rfl rfl (.inr rfl), rfl⟩
  | finishResponse index success =>
      rcases world.step_finishResponse index success with same | present
      · rw [same]
        exact ⟨inv, rfl⟩
      · obtain ⟨txn, stopped, found, result⟩ := present
        rw [result]
        exact ⟨(inv.take found).1.finishResponse stopped success, rfl⟩
  | restart config => exact ⟨boot_loopInv config world.tables world.now, rfl⟩

end

section

variable {config : SenderConfig} {tables : Tables} {now : Nat}
  {world : SenderWorld}
  {history : List (Entry SenderWorld SenderAction SenderOutcome)}

section

variable
  (reaches : Reaches SenderWorld.step (.boot config tables now) history world)
include reaches

theorem loopInv_of_reaches :
    LoopInv world ∧ ∀ entry ∈ history, entry.output = .handled := by
  refine Reaches.invariant (fun history world => LoopInv world ∧
      ∀ entry ∈ history, entry.output = .handled)
    ⟨boot_loopInv config tables now, forall_mem_nil _⟩ ?_ reaches
    (Always.of_forall_mem (fun _ _ => trivial))
  intro history world action holds _
  obtain ⟨inv, handled⟩ := holds.1.step action
  exact ⟨inv, forall_mem_snoc holds.2 handled⟩

/-- While the loop runs, the destinations with a transaction in flight are those
whose status says so, each has one, and no step has panicked. -/
theorem oneTransaction_iff_busy :
    (∀ entry ∈ history, entry.output ≠ .panicked) ∧
      (world.stopping = false → ∀ dest, (world.inFlight.count dest ≤ 1) ∧
        (world.inFlight.count dest = 1 ↔ world.statuses dest = some .running ∨
            ∃ tries, world.statuses dest = some (.retrying tries))) := by
  obtain ⟨inv, handled⟩ := loopInv_of_reaches reaches
  refine ⟨fun entry member => by rw [handled entry member]; decide,
    fun going dest => ⟨nodup_iff_count_le_one.mp inv.oneEach dest, ?_⟩⟩
  have count : world.inFlight.count dest = 1 ↔ dest ∈ world.inFlight := by
    constructor
    · intro one
      exact count_pos_iff.mp (by omega)
    · exact count_eq_one_of_mem inv.oneEach
  rw [count, inv.busy going dest]
  cases world.statuses dest with
  | none => simp [isBusy]
  | some status => cases status <;> simp [isBusy]

end

end

namespace OneServer

def dest : Destination := .federation otherServer

def pduId (byte : Byte) : RawPduId where
  bytes := List.replicate 16 byte
  isLength := Or.inl rfl

def config (startupNetburst : Bool) : SenderConfig where
  senderTimeout := 180
  senderRetryBackoffLimit := 86400
  startupNetburst
  startupNetburstKeep := -1

def start (startupNetburst : Bool) : SenderWorld :=
  .boot (config startupNetburst) noTables 0

def retried : List SenderAction :=
  [.sendPdu (pduId 1) [dest], .handleRequest 0 none, .handleResponse 0 false,
    .wait (fromSecs 180), .sendPdu (pduId 2) [dest], .handleRequest 0 none]

theorem retried_oneTransaction :
    ((run SenderWorld.step (start true) retried).2.statuses dest =
        some (.retrying 1)) ∧
      (∀ entry ∈ (run SenderWorld.step (start true) retried).1,
        entry.output ≠ .panicked) ∧
      ((run SenderWorld.step (start true) retried).2.stopping = false → ∀ other,
        ((run SenderWorld.step (start true) retried).2.inFlight.count other ≤
          1) ∧
        ((run SenderWorld.step (start true) retried).2.inFlight.count other =
            1 ↔
          (run SenderWorld.step (start true) retried).2.statuses other =
              some .running ∨
            ∃ tries, (run SenderWorld.step (start true) retried).2.statuses
              other = some (.retrying tries))) :=
  ⟨by decide +kernel, oneTransaction_iff_busy (reaches_run _ _ _)⟩

end OneServer

end ArcanaServer.Sending
