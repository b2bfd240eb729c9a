import ArcanaServer.Library.EntryTable
import ArcanaServer.Library.Trace
import ArcanaServer.Matrix.Event
import Mathlib.Logic.Function.Basic

namespace ArcanaServer.Transactions

open Library ArcanaServer.Matrix EntryTable Function

structure TxnKey where
  origin : ServerName
  transactionId : String
  deriving DecidableEq, Repr

structure TransactionResponse where
  pdus : List (EventId × Except String Unit)

inductive TransactionError where
  | shuttingDown
  deriving DecidableEq, Repr

abbrev TransactionResult := Except TransactionError TransactionResponse

abbrev WrappedTransactionResponse := Option TransactionResult

/-- Times are in nanoseconds. -/
structure CachedTxnResponse where
  response : TransactionResponse
  created : Nat

abbrev ChannelId := Nat

inductive TxnState where
  | active (receiver : ChannelId)
  | cached (response : CachedTxnResponse)

def TxnState.isActive : TxnState → Bool
  | .active _ => true
  | .cached _ => false

def TxnState.isCached : TxnState → Bool
  | .active _ => false
  | .cached _ => true

abbrev TxnTable := EntryTable TxnKey TxnState

inductive FederationTxnState where
  | cached (response : TransactionResponse)
  | active (receiver : ChannelId)
  | started (receiver sender : ChannelId)

/-- Both are answered with `LimitExceeded`. -/
inductive TxnRefusal where
  | originBusy
  | overloaded
  deriving DecidableEq, Repr

structure TxnConfig where
  maxConcurrentInboundTransactions : Nat
  transactionIdCacheMaxAgeSecs : Nat
  transactionIdCacheMaxEntries : Nat

def cleanupIntervalSecs : Nat := 30

def fromSecs (seconds : Nat) : Nat := seconds * 1000000000

def asSecs (time : Nat) : Nat := time / 1000000000

structure Channel where
  value : WrappedTransactionResponse
  senderDropped : Bool

def Channel.new : Channel := ⟨none, false⟩

structure TxnService where
  config : TxnConfig
  federationTxnState : TxnTable
  lastCleanup : Nat
  channels : ChannelId → Channel
  nextChannel : ChannelId

namespace TxnService

variable (service : TxnService)

def activeCount : Nat :=
  service.federationTxnState.countWith TxnState.isActive

def hasActiveFromOrigin (origin : ServerName) : Bool :=
  service.federationTxnState.entries.any
    (fun entry => entry.1.origin = origin && entry.2.isActive)

def getOrStartFederationTxn (key : TxnKey) :
    Except TxnRefusal FederationTxnState × TxnService :=
  match service.federationTxnState.lookup key with
  | some (.cached cached) => (.ok (.cached cached.response), service)
  | some (.active receiver) => (.ok (.active receiver), service)
  | none =>
      if service.hasActiveFromOrigin key.origin then
        (.error .originBusy, service)
      else
        let maxActiveTxns := service.config.maxConcurrentInboundTransactions
        if maxActiveTxns ≤ service.federationTxnState.entries.length &&
            maxActiveTxns ≤ service.activeCount then
          (.error .overloaded, service)
        else
          let channel := service.nextChannel
          (.ok (.started channel channel), { service with
            channels := update service.channels channel .new
            nextChannel := channel + 1
            federationTxnState :=
              service.federationTxnState.insert key (.active channel) })

def send (sender : ChannelId) (result : TransactionResult) : TxnService :=
  { service with
    channels := update service.channels sender ⟨some result, true⟩ }

def dropSender (sender : ChannelId) : TxnService :=
  { service with
    channels := update service.channels sender
      { service.channels sender with senderDropped := true } }

def shouldTryCleanup (now : Nat) : Bool × TxnService :=
  if cleanupIntervalSecs ≤ asSecs now - service.lastCleanup then
    (true, { service with lastCleanup := asSecs now })
  else (false, service)

end TxnService

def cachedEntry (entry : (_ : TxnKey) × TxnState) : Option (TxnKey × Nat) :=
  match entry.2 with
  | .cached cached => some (entry.1, cached.created)
  | .active _ => none

/-- First what is too old goes, then the oldest of what is too much. -/
def cleanupEntriesLocked (config : TxnConfig) (now : Nat)
    (iteration : Iteration ((_ : TxnKey) × TxnState)) (state : TxnTable) :
    TxnTable :=
  let cutoff := now - fromSecs config.transactionIdCacheMaxAgeSecs
  let state := state.retain (fun _ value =>
    match value with
    | .active _ => true
    | .cached cached => cutoff < cached.created)
  let cachedCount := state.countWith TxnState.isCached
  if config.transactionIdCacheMaxEntries < cachedCount then
    let excess := cachedCount - config.transactionIdCacheMaxEntries
    let cachedEntries :=
      ((iteration.order state.entries).filterMap cachedEntry).mergeSort
        (fun entry later => entry.2 ≤ later.2)
    (cachedEntries.take excess).foldl (fun state entry => state.erase entry.1)
      state
  else state

namespace TxnService

def finishFederationTxn (service : TxnService) (now : Nat)
    (iteration : Iteration ((_ : TxnKey) × TxnState)) (key : TxnKey)
    (sender : ChannelId) (response : TransactionResponse) : TxnService :=
  let (shouldTryCleanup, service) := service.shouldTryCleanup now
  let service := { service with
    federationTxnState := service.federationTxnState.insert key
      (.cached ⟨response, now⟩) }
  let service := service.send sender (.ok response)
  if shouldTryCleanup then
    { service with
      federationTxnState := cleanupEntriesLocked service.config now iteration
        service.federationTxnState }
  else service

def removeFederationTxn (service : TxnService) (key : TxnKey) : TxnService :=
  { service with
    federationTxnState := service.federationTxnState.erase key }

def clearCache (service : TxnService) : TxnService :=
  { service with
    federationTxnState := service.federationTxnState.retain
      (fun _ value => value.isActive) }

end TxnService

structure Thins (before after : TxnTable) : Prop where
  sublist : after.entries.Sublist before.entries
  active : ∀ key receiver, before.lookup key = some (.active receiver) →
    after.lookup key = some (.active receiver)

namespace Thins

variable {before middle after : TxnTable}

theorem refl (table : TxnTable) : Thins table table :=
  ⟨.refl _, fun _ _ found => found⟩

theorem trans (first : Thins before middle) (second : Thins middle after) :
    Thins before after :=
  ⟨second.sublist.trans first.sublist,
    fun key receiver found =>
      second.active key receiver (first.active key receiver found)⟩

theorem retain {kept : TxnKey → TxnState → Bool}
    (keepsActive : ∀ key receiver, kept key (.active receiver) = true) :
    Thins before (before.retain kept) :=
  ⟨before.retain_sublist kept, fun key receiver found =>
    lookup_retain.mpr ⟨found, keepsActive key receiver⟩⟩

theorem lookup (thins : Thins before after) (key : TxnKey) :
    after.lookup key = before.lookup key ∨
      ∃ cached, before.lookup key = some (.cached cached) ∧
        after.lookup key = none := by
  cases found : after.lookup key with
  | some value =>
      exact .inl (lookup_of_sublist thins.sublist found).symm
  | none =>
      cases old : before.lookup key with
      | none => exact .inl rfl
      | some value =>
          cases value with
          | cached cached => exact .inr ⟨cached, rfl, rfl⟩
          | active receiver =>
              rw [thins.active key receiver old] at found
              cases found

theorem lookup_active (thins : Thins before after) {key : TxnKey}
    {receiver : ChannelId} :
    after.lookup key = some (.active receiver) ↔
      before.lookup key = some (.active receiver) :=
  ⟨lookup_of_sublist thins.sublist, thins.active key receiver⟩

end Thins

theorem cachedEntry_eq_some {entry : (_ : TxnKey) × TxnState}
    {key : TxnKey} {created : Nat} (found : cachedEntry entry =
      some (key, created)) :
    ∃ cached, entry = ⟨key, .cached cached⟩ := by
  obtain ⟨entryKey, value⟩ := entry
  cases value with
  | active receiver => cases found
  | cached cached =>
      cases found
      exact ⟨cached, rfl⟩

theorem thins_eraseCached {table : TxnTable} {keys : List (TxnKey × Nat)}
    (cached : ∀ entry ∈ keys, ∀ receiver,
      table.lookup entry.1 ≠ some (.active receiver)) :
    Thins table (keys.foldl (fun state entry => state.erase entry.1)
      table) := by
  induction keys generalizing table with
  | nil => exact .refl table
  | cons entry rest ih =>
      have erased : Thins table (table.erase entry.1) := by
        refine ⟨table.erase_sublist _, fun key receiver isActive => ?_⟩
        rw [AList.lookup_erase_ne, isActive]
        rintro rfl
        exact cached entry List.mem_cons_self receiver isActive
      refine erased.trans (ih (fun other member receiver isActive => ?_))
      exact cached other (List.mem_cons_of_mem entry member) receiver
        (erased.lookup_active.mp isActive)

theorem thins_cleanupEntriesLocked (config : TxnConfig) (now : Nat)
    (iteration : Iteration ((_ : TxnKey) × TxnState)) (table : TxnTable) :
    Thins table (cleanupEntriesLocked config now iteration table) := by
  unfold cleanupEntriesLocked
  simp only
  split
  · refine (Thins.retain (fun _ _ => rfl)).trans (thins_eraseCached ?_)
    intro entry member receiver isActive
    have sorted := List.mem_of_mem_take member
    rw [List.mem_mergeSort] at sorted
    obtain ⟨raw, inside, found⟩ := List.mem_filterMap.mp sorted
    obtain ⟨cached, rfl⟩ := cachedEntry_eq_some found
    have listed := (iteration.perm _).mem_iff.mp inside
    rw [lookup_eq_some.mpr listed] at isActive
    cases isActive
  · exact Thins.retain (fun _ _ => rfl)

theorem thins_clearCache (service : TxnService) :
    Thins service.federationTxnState service.clearCache.federationTxnState :=
  @Thins.retain service.federationTxnState (fun _ value => value.isActive)
    (fun _ _ => rfl)

structure Process where
  key : TxnKey
  sender : ChannelId
  deriving DecidableEq, Repr

/-- `began` is the time at which the wait began. -/
structure Waiter where
  key : TxnKey
  receiver : ChannelId
  began : Nat
  deriving DecidableEq, Repr

inductive WaitAnswer where
  | result (result : TransactionResult)
  | tooLong
  | unexpected

def waitTimeoutSecs : Nat := 50

/-- Where the wait goes on there is no answer. -/
def waitForResult (channel : Channel) (began now : Nat) : Option WaitAnswer :=
  match channel.value with
  | some result => some (.result result)
  | none =>
      if channel.senderDropped then some .unexpected
      else if began + fromSecs waitTimeoutSecs ≤ now then some .tooLong
      else none

/-- A process that failed has left the table before it sends its error. -/
structure TxnWorld where
  service : TxnService
  processes : List Process
  failing : List (Process × TransactionError)
  waiters : List Waiter
  now : Nat

inductive TxnAction where
  | getOrStart (key : TxnKey)
  | finish (index : Nat) (response : TransactionResponse)
      (iteration : Iteration ((_ : TxnKey) × TxnState))
  | remove (index : Nat) (error : TransactionError)
  | sendError (index : Nat)
  | abort (index : Nat)
  | poll (index : Nat)
  | disconnect (index : Nat)
  | cleanup (iteration : Iteration ((_ : TxnKey) × TxnState))
  | clearCache
  | elapse (duration : Nat)

inductive TxnOutcome where
  | cached (response : TransactionResponse)
  | waits (waiter : Waiter)
  | refused (refusal : TxnRefusal)
  | answered (waiter : Waiter) (answer : WaitAnswer)
  | nothing

namespace TxnWorld

def boot (config : TxnConfig) (now : Nat) : TxnWorld where
  service := {
    config
    federationTxnState := ∅
    lastCleanup := 0
    channels := fun _ => .new
    nextChannel := 0 }
  processes := []
  failing := []
  waiters := []
  now := now

def getOrStart (world : TxnWorld) (key : TxnKey) : TxnWorld × TxnOutcome :=
  match world.service.getOrStartFederationTxn key with
  | (.error refusal, service) =>
      ({ world with service }, .refused refusal)
  | (.ok (.cached response), service) =>
      ({ world with service }, .cached response)
  | (.ok (.active receiver), service) =>
      let waiter : Waiter := ⟨key, receiver, world.now⟩
      ({ world with service, waiters := world.waiters ++ [waiter] },
        .waits waiter)
  | (.ok (.started receiver sender), service) =>
      let waiter : Waiter := ⟨key, receiver, world.now⟩
      ({ world with
          service
          processes := world.processes ++ [⟨key, sender⟩]
          waiters := world.waiters ++ [waiter] }, .waits waiter)

variable (world : TxnWorld) (index : Nat) (process : Process)

def finish (response : TransactionResponse)
    (iteration : Iteration ((_ : TxnKey) × TxnState)) : TxnWorld :=
  { world with
    service := world.service.finishFederationTxn world.now iteration
      process.key process.sender response
    processes := world.processes.eraseIdx index }

def remove (error : TransactionError) : TxnWorld :=
  { world with
    service := world.service.removeFederationTxn process.key
    processes := world.processes.eraseIdx index
    failing := world.failing ++ [(process, error)] }

def sendError (error : TransactionError) : TxnWorld :=
  { world with
    service := world.service.send process.sender (.error error)
    failing := world.failing.eraseIdx index }

def abort : TxnWorld :=
  { world with
    service := world.service.dropSender process.sender
    processes := world.processes.eraseIdx index }

variable (world : TxnWorld)

def poll (index : Nat) (waiter : Waiter) : TxnWorld × TxnOutcome :=
  match waitForResult (world.service.channels waiter.receiver) waiter.began
    world.now with
  | none => (world, .nothing)
  | some answer =>
      ({ world with waiters := world.waiters.eraseIdx index },
        .answered waiter answer)

/-- A step of a task or a request that is not there does nothing. -/
def step : TxnAction → TxnWorld × TxnOutcome
  | .getOrStart key => world.getOrStart key
  | .finish index response iteration =>
      match world.processes[index]? with
      | some process =>
          (world.finish index process response iteration, .nothing)
      | none => (world, .nothing)
  | .remove index error =>
      match world.processes[index]? with
      | some process => (world.remove index process error, .nothing)
      | none => (world, .nothing)
  | .sendError index =>
      match world.failing[index]? with
      | some (process, error) =>
          (world.sendError index process error, .nothing)
      | none => (world, .nothing)
  | .abort index =>
      match world.processes[index]? with
      | some process => (world.abort index process, .nothing)
      | none => (world, .nothing)
  | .poll index =>
      match world.waiters[index]? with
      | some waiter => world.poll index waiter
      | none => (world, .nothing)
  | .disconnect index =>
      ({ world with waiters := world.waiters.eraseIdx index }, .nothing)
  | .cleanup iteration =>
      ({ world with
          service := { world.service with
            federationTxnState := cleanupEntriesLocked world.service.config
              world.now iteration world.service.federationTxnState } },
        .nothing)
  | .clearCache =>
      ({ world with service := world.service.clearCache }, .nothing)
  | .elapse duration =>
      ({ world with now := world.now + duration }, .nothing)

def table : TxnTable := world.service.federationTxnState

def channel (id : ChannelId) : Channel :=
  world.service.channels id

end TxnWorld

inductive Gives (world : TxnWorld) (process : Process) :
    TransactionResult → TxnAction → Prop
  | finished (index : Nat) (response : TransactionResponse)
      (iteration : Iteration ((_ : TxnKey) × TxnState))
      (found : world.processes[index]? = some process) :
      Gives world process (.ok response) (.finish index response iteration)
  | failed (index : Nat) (error : TransactionError)
      (found : world.failing[index]? = some (process, error)) :
      Gives world process (.error error) (.sendError index)

inductive Ends (world : TxnWorld) (process : Process) : TxnAction → Prop
  | finished (index : Nat) (response : TransactionResponse)
      (iteration : Iteration ((_ : TxnKey) × TxnState))
      (found : world.processes[index]? = some process) :
      Ends world process (.finish index response iteration)
  | removed (index : Nat) (error : TransactionError)
      (found : world.processes[index]? = some process) :
      Ends world process (.remove index error)

inductive Dies (world : TxnWorld) (process : Process) : TxnAction → Prop
  | aborted (index : Nat) (found : world.processes[index]? = some process) :
      Dies world process (.abort index)

def TxnWorld.started (world : TxnWorld) (key : TxnKey) : TxnWorld :=
  { world with
    service := { world.service with
      channels := update world.service.channels world.service.nextChannel .new
      nextChannel := world.service.nextChannel + 1
      federationTxnState := world.table.insert key
        (.active world.service.nextChannel) }
    processes := world.processes ++ [⟨key, world.service.nextChannel⟩]
    waiters := world.waiters ++
      [⟨key, world.service.nextChannel, world.now⟩] }

inductive GotOrStarted (world : TxnWorld) (key : TxnKey) :
    TxnWorld × TxnOutcome → Prop
  | refused (refusal : TxnRefusal) :
      GotOrStarted world key (world, .refused refusal)
  | cached (cached : CachedTxnResponse)
      (found : world.table.lookup key = some (.cached cached)) :
      GotOrStarted world key (world, .cached cached.response)
  | joined (receiver : ChannelId)
      (found : world.table.lookup key = some (.active receiver)) :
      GotOrStarted world key
        ({ world with
            waiters := world.waiters ++ [⟨key, receiver, world.now⟩] },
          .waits ⟨key, receiver, world.now⟩)
  | started (missing : world.table.lookup key = none)
      (quiet : world.service.hasActiveFromOrigin key.origin = false)
      (room : world.service.activeCount <
        world.service.config.maxConcurrentInboundTransactions) :
      GotOrStarted world key
        (world.started key, .waits ⟨key, world.service.nextChannel, world.now⟩)

theorem TxnWorld.getOrStart_cases (world : TxnWorld) (key : TxnKey) :
    GotOrStarted world key (world.getOrStart key) := by
  unfold TxnWorld.getOrStart TxnService.getOrStartFederationTxn
  cases found : world.service.federationTxnState.lookup key with
  | some value =>
      cases value with
      | active receiver => exact .joined receiver found
      | cached cached => exact .cached cached found
  | none =>
      simp only
      cases quiet : world.service.hasActiveFromOrigin key.origin with
      | true => exact .refused .originBusy
      | false =>
          simp only [Bool.false_eq_true, if_false]
          by_cases full :
              (world.service.config.maxConcurrentInboundTransactions ≤
                world.service.federationTxnState.entries.length &&
              world.service.config.maxConcurrentInboundTransactions ≤
                world.service.activeCount) = true
          · rw [if_pos full]
            exact .refused .overloaded
          · rw [if_neg full]
            refine .started found quiet ?_
            have few : world.service.activeCount ≤
                world.service.federationTxnState.entries.length :=
              countWith_le_length
            simp only [Bool.and_eq_true, decide_eq_true_eq, not_and_or,
              not_le] at full
            exact full.elim (Nat.lt_of_le_of_lt few) id

/-- What a step does.  A thinner table comes from a cleanup. -/
inductive Stepped (world : TxnWorld) : TxnAction → TxnWorld × TxnOutcome → Prop
  | idle (action : TxnAction) : Stepped world action (world, .nothing)
  | got {key : TxnKey} {outcome : TxnWorld × TxnOutcome}
      (got : GotOrStarted world key outcome) :
      Stepped world (.getOrStart key) outcome
  | finish (index : Nat) (process : Process) (response : TransactionResponse)
      (iteration : Iteration ((_ : TxnKey) × TxnState))
      (found : world.processes[index]? = some process) :
      Stepped world (.finish index response iteration)
        (world.finish index process response iteration, .nothing)
  | remove (index : Nat) (process : Process) (error : TransactionError)
      (found : world.processes[index]? = some process) :
      Stepped world (.remove index error)
        (world.remove index process error, .nothing)
  | sendError (index : Nat) (process : Process) (error : TransactionError)
      (found : world.failing[index]? = some (process, error)) :
      Stepped world (.sendError index)
        (world.sendError index process error, .nothing)
  | abort (index : Nat) (process : Process)
      (found : world.processes[index]? = some process) :
      Stepped world (.abort index) (world.abort index process, .nothing)
  | answered (index : Nat) (waiter : Waiter) (answer : WaitAnswer)
      (found : world.waiters[index]? = some waiter)
      (answers : waitForResult (world.channel waiter.receiver) waiter.began
        world.now = some answer) :
      Stepped world (.poll index)
        ({ world with waiters := world.waiters.eraseIdx index },
          .answered waiter answer)
  | disconnected (index : Nat) : Stepped world (.disconnect index)
        ({ world with waiters := world.waiters.eraseIdx index }, .nothing)
  | thinned (action : TxnAction) (state : TxnTable)
      (thins : Thins world.table state) :
      Stepped world action
        ({ world with
            service := { world.service with federationTxnState := state } },
          .nothing)
  | elapsed (duration : Nat) : Stepped world (.elapse duration)
        ({ world with now := world.now + duration }, .nothing)

theorem TxnWorld.step_cases (world : TxnWorld) (action : TxnAction) :
    Stepped world action (world.step action) := by
  unfold TxnWorld.step
  cases action with
  | getOrStart key => exact .got (world.getOrStart_cases key)
  | finish index | remove index | sendError index | abort index =>
      simp only
      split
      next found => constructor; exact found
      · exact .idle _
  | poll index =>
      simp only
      split
      next waiter found =>
        unfold TxnWorld.poll
        split
        · exact .idle _
        next answer answers => exact .answered index waiter answer found answers
      · exact .idle _
  | disconnect index => exact .disconnected index
  | cleanup iteration =>
      exact .thinned _ _ (thins_cleanupEntriesLocked _ _ _ _)
  | clearCache => exact .thinned _ _ (thins_clearCache world.service)
  | elapse duration => exact .elapsed duration

theorem TxnService.finishFederationTxn_service (service : TxnService)
    (now : Nat) (iteration : Iteration ((_ : TxnKey) × TxnState))
    (key : TxnKey) (sender : ChannelId) (response : TransactionResponse) :
    ∃ (lastCleanup : Nat) (state : TxnTable), Thins
        (service.federationTxnState.insert key (.cached ⟨response, now⟩))
        state ∧
      service.finishFederationTxn now iteration key sender response =
        { service with
          lastCleanup
          channels := update service.channels sender
            ⟨some (.ok response), true⟩
          federationTxnState := state } := by
  unfold TxnService.finishFederationTxn TxnService.shouldTryCleanup
  by_cases due : cleanupIntervalSecs ≤ asSecs now - service.lastCleanup
  · rw [if_pos due]
    exact ⟨_, _, thins_cleanupEntriesLocked service.config now iteration _, rfl⟩
  · rw [if_neg due]
    exact ⟨_, _, .refl _, rfl⟩

def TxnService.IsActive (service : TxnService) (key : TxnKey)
    (receiver : ChannelId) : Prop :=
  service.federationTxnState.lookup key = some (.active receiver)

structure TableInv (service : TxnService) : Prop where
  origins : ∀ key other receiver last, service.IsActive key receiver →
    service.IsActive other last → key.origin = other.origin → key = other
  single : ∀ key other receiver, service.IsActive key receiver →
    service.IsActive other receiver → key = other
  maximum :
    service.activeCount ≤ service.config.maxConcurrentInboundTransactions
  known : ∀ key receiver, service.IsActive key receiver →
    receiver < service.nextChannel
  fresh : ∀ id, service.nextChannel ≤ id → service.channels id = .new

section

variable {service after : TxnService} {key : TxnKey} {receiver : ChannelId}

theorem TableInv.fewer (inv : TableInv service)
    (fewer : ∀ key receiver, after.IsActive key receiver →
      service.IsActive key receiver)
    (count : after.activeCount ≤ service.activeCount)
    (config : after.config = service.config)
    (nextChannel : after.nextChannel = service.nextChannel)
    (fresh : ∀ id, service.nextChannel ≤ id → after.channels id = .new) :
    TableInv after where
  origins key other receiver last first second :=
    inv.origins key other receiver last (fewer _ _ first) (fewer _ _ second)
  single key other receiver first second :=
    inv.single key other receiver (fewer _ _ first) (fewer _ _ second)
  maximum := by
    rw [config]
    exact le_trans count inv.maximum
  known key receiver isActive := by
    rw [nextChannel]
    exact inv.known key receiver (fewer key receiver isActive)
  fresh id above := fresh id (nextChannel ▸ above)

theorem hasActiveFromOrigin_of_active
    (isActive : service.IsActive key receiver) :
    service.hasActiveFromOrigin key.origin = true := by
  unfold TxnService.hasActiveFromOrigin
  rw [List.any_eq_true]
  exact ⟨⟨key, .active receiver⟩, lookup_eq_some.mp isActive,
    by simp [TxnState.isActive]⟩

variable {table : TxnTable} {other : TxnKey}

theorem isActive_insert_cached {cached : CachedTxnResponse} :
    (table.insert key (.cached cached)).lookup other = some (.active receiver) ↔
      other ≠ key ∧ table.lookup other = some (.active receiver) := by
  by_cases same : other = key
  · subst same
    rw [AList.lookup_insert]
    simp
  · rw [AList.lookup_insert_ne same]
    exact (and_iff_right same).symm

theorem isActive_erase :
    (table.erase key).lookup other = some (.active receiver) ↔
      other ≠ key ∧ table.lookup other = some (.active receiver) := by
  by_cases same : other = key
  · subst same
    rw [AList.lookup_erase]
    simp
  · rw [AList.lookup_erase_ne same]
    exact (and_iff_right same).symm

theorem isActive_insert_active {channel : ChannelId} :
    (table.insert key (.active channel)).lookup other =
        some (.active receiver) ↔
      (other = key ∧ receiver = channel) ∨
        other ≠ key ∧ table.lookup other = some (.active receiver) := by
  by_cases same : other = key
  · subst same
    rw [AList.lookup_insert]
    simp [eq_comm]
  · rw [AList.lookup_insert_ne same]
    simp [same]

theorem TableInv.started (inv : TableInv service)
    (quiet : service.hasActiveFromOrigin key.origin = false)
    (room : service.activeCount <
      service.config.maxConcurrentInboundTransactions) :
    TableInv { service with
      channels := update service.channels service.nextChannel .new
      nextChannel := service.nextChannel + 1
      federationTxnState := service.federationTxnState.insert key
        (.active service.nextChannel) } := by
  have alone : ∀ other last, service.IsActive other last →
      other.origin ≠ key.origin := by
    intro other last isActive same
    have busy := hasActiveFromOrigin_of_active isActive
    rw [same, quiet] at busy
    cases busy
  refine ⟨?_, ?_, ?_, ?_, ?_⟩
  · intro first second receiver last one two same
    rcases isActive_insert_active.mp one with ⟨rfl, _⟩ | ⟨_, old⟩
    · rcases isActive_insert_active.mp two with ⟨rfl, _⟩ | ⟨_, other⟩
      · rfl
      · exact absurd same.symm (alone second last other)
    · rcases isActive_insert_active.mp two with ⟨rfl, _⟩ | ⟨_, other⟩
      · exact absurd same (alone first receiver old)
      · exact inv.origins first second receiver last old other same
  · intro first second receiver one two
    rcases isActive_insert_active.mp one with ⟨rfl, rfl⟩ | ⟨_, old⟩
    · rcases isActive_insert_active.mp two with ⟨rfl, _⟩ | ⟨_, other⟩
      · rfl
      · exact absurd (inv.known second _ other) (lt_irrefl _)
    · rcases isActive_insert_active.mp two with ⟨rfl, rfl⟩ | ⟨_, other⟩
      · exact absurd (inv.known first _ old) (lt_irrefl _)
      · exact inv.single first second receiver old other
  · exact le_trans countWith_insert_le room
  · intro other receiver isActive
    rcases isActive_insert_active.mp isActive with ⟨_, rfl⟩ | ⟨_, old⟩
    · exact Nat.lt_succ_self _
    · exact lt_trans (inv.known other receiver old) (Nat.lt_succ_self _)
  · intro id above
    simp only [update_apply]
    split
    · rfl
    · exact inv.fresh id (le_trans (Nat.le_succ _) above)

end

structure TaskInv (world : TxnWorld) : Prop where
  processes : ∀ process ∈ world.processes,
    world.service.IsActive process.key process.sender
  failing : ∀ entry ∈ world.failing,
    entry.1.sender < world.service.nextChannel ∧
      ∀ key, ¬ world.service.IsActive key entry.1.sender
  distinct : (world.processes.map Process.sender).Nodup
  distinctFailing : (world.failing.map (fun entry => entry.1.sender)).Nodup
  silent : ∀ process ∈ world.processes, world.channel process.sender = .new
  silentFailing : ∀ entry ∈ world.failing, world.channel entry.1.sender = .new

namespace TaskInv

variable {world : TxnWorld} {process other : Process} {index : Nat}

section

variable (tasks : TaskInv world)
include tasks

theorem eq_of_sender (first : process ∈ world.processes)
    (second : other ∈ world.processes) (same : process.sender = other.sender) :
    process = other :=
  List.inj_on_of_nodup_map tasks.distinct first second same

theorem eq_of_failing {entry last : Process × TransactionError}
    (first : entry ∈ world.failing) (second : last ∈ world.failing)
    (same : entry.1.sender = last.1.sender) : entry = last :=
  List.inj_on_of_nodup_map tasks.distinctFailing first second same

theorem not_failing (running : process ∈ world.processes)
    {entry : Process × TransactionError} (member : entry ∈ world.failing) :
    entry.1.sender ≠ process.sender := by
  intro same
  exact (tasks.failing entry member).2 process.key
    (same ▸ tasks.processes process running)

theorem sender_ne_of_mem_eraseIdx
    (found : world.processes[index]? = some process)
    (member : other ∈ world.processes.eraseIdx index) :
    other.sender ≠ process.sender := by
  intro same
  obtain ⟨position, apart, isOther⟩ := List.mem_eraseIdx_iff_getElem?.mp member
  have listed : (world.processes.map Process.sender)[index]? =
      (world.processes.map Process.sender)[position]? := by
    rw [List.getElem?_map, List.getElem?_map, found, isOther]
    exact congrArg some same.symm
  have inRange : index < (world.processes.map Process.sender).length := by
    rw [List.length_map]
    exact (List.getElem?_eq_some_iff.mp found).1
  exact apart ((List.getElem?_inj inRange tasks.distinct).mp listed).symm

end

end TaskInv

end ArcanaServer.Transactions
