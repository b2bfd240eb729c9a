import ArcanaServer.Transactions.Table

namespace ArcanaServer.Transactions

open Library ArcanaServer.Matrix List EntryTable

/-! What becomes of a run: its process works on it, has failed, has given a
result, or has died. -/

abbrev TxnHistory := List (Entry TxnWorld TxnAction TxnOutcome)

def Gave (history : TxnHistory) (run : Process) (result : TransactionResult) :
    Prop :=
  ∃ entry ∈ history, Gives entry.before run result entry.input

def Died (history : TxnHistory) (run : Process) : Prop :=
  ∃ entry ∈ history, Dies entry.before run entry.input

inductive Fate (history : TxnHistory) (world : TxnWorld) (run : Process) : Prop
  | running (member : run ∈ world.processes)
  | failing (error : TransactionError) (member : (run, error) ∈ world.failing)
  | given (result : TransactionResult) (gave : Gave history run result)
      (value : (world.channel run.sender).value = some result)
  | dead (died : Died history run)
      (value : world.channel run.sender = ⟨none, true⟩)

section

variable {history : TxnHistory} {run : Process} {result : TransactionResult}

theorem Gave.snoc (gave : Gave history run result)
    (entry : Entry TxnWorld TxnAction TxnOutcome) :
    Gave (history ++ [entry]) run result := by
  obtain ⟨earlier, member, gives⟩ := gave
  exact ⟨earlier, mem_append_left _ member, gives⟩

variable {world : TxnWorld} {action : TxnAction}

theorem gave_snoc
    (gave : Gave (history ++ [entryOf TxnWorld.step world action]) run result) :
    Gave history run result ∨ Gives world run result action := by
  obtain ⟨entry, member, gives⟩ := gave
  rcases mem_append.mp member with earlier | last
  · exact .inl ⟨entry, earlier, gives⟩
  · rw [mem_singleton.mp last] at gives
    exact .inr gives

theorem died_snoc
    (died : Died (history ++ [entryOf TxnWorld.step world action]) run) :
    Died history run ∨ Dies world run action := by
  obtain ⟨entry, member, dies⟩ := died
  rcases mem_append.mp member with earlier | last
  · exact .inl ⟨entry, earlier, dies⟩
  · rw [mem_singleton.mp last] at dies
    exact .inr dies

theorem gave_last (gives : Gives world run result action) :
    Gave (history ++ [entryOf TxnWorld.step world action]) run result :=
  ⟨_, mem_append_right _ mem_cons_self, gives⟩

end

section

variable {history : TxnHistory} {world after : TxnWorld} {run : Process}

theorem Fate.keep (fate : Fate history world run)
    (entry : Entry TxnWorld TxnAction TxnOutcome)
    (processes : run ∈ world.processes → run ∈ after.processes)
    (failing : ∀ error, (run, error) ∈ world.failing →
      (run, error) ∈ after.failing)
    (channel : after.channel run.sender = world.channel run.sender) :
    Fate (history ++ [entry]) after run := by
  cases fate with
  | running member => exact .running (processes member)
  | failing error member => exact .failing error (failing error member)
  | given result gave value =>
      exact .given result (gave.snoc entry) (channel ▸ value)
  | dead died value =>
      obtain ⟨earlier, member, dies⟩ := died
      exact .dead ⟨earlier, mem_append_left _ member, dies⟩
        (channel.trans value)

/-- Another run has another channel than one whose process works on it. -/
theorem Fate.sender_ne (fate : Fate history world run)
    (tasks : TaskInv world) {process : Process}
    (member : process ∈ world.processes) (other : run ≠ process) :
    run.sender ≠ process.sender := by
  have silent := tasks.silent process member
  intro same
  cases fate with
  | running inside => exact other (tasks.eq_of_sender inside member same)
  | failing error inside => exact tasks.not_failing member inside same
  | given result gave value | dead died value =>
      rw [same, silent] at value
      cases value

theorem Fate.sender_ne_failing (fate : Fate history world run)
    (tasks : TaskInv world) {entry : Process × TransactionError}
    (member : entry ∈ world.failing) (other : run ≠ entry.1) :
    run.sender ≠ entry.1.sender := by
  have silent := tasks.silentFailing entry member
  intro same
  cases fate with
  | running inside => exact tasks.not_failing inside member same.symm
  | failing error inside =>
      have equal := tasks.eq_of_failing inside member same
      exact other (congrArg Prod.fst equal)
  | given result gave value | dead died value =>
      rw [same, silent] at value
      cases value

theorem mem_eraseIdx_of_ne {α : Type} {items : List α} {index : Nat}
    {item gone : α} (member : item ∈ items) (found : items[index]? = some gone)
    (differs : item ≠ gone) : item ∈ items.eraseIdx index := by
  obtain ⟨position, bound, isItem⟩ := getElem_of_mem member
  refine mem_eraseIdx_iff_getElem?.mpr ⟨position, ?_, ?_⟩
  · rintro rfl
    rw [List.getElem?_eq_getElem bound, isItem] at found
    exact differs (Option.some.inj found)
  · rw [List.getElem?_eq_getElem bound, isItem]

end

section

variable {world after : TxnWorld}

theorem TaskInv.of_sub (tasks : TaskInv world)
    (processes : after.processes.Sublist world.processes)
    (failing : after.failing.Sublist world.failing)
    (keeps : ∀ process ∈ after.processes,
      after.service.IsActive process.key process.sender)
    (fewer : ∀ key receiver, after.service.IsActive key receiver →
      world.service.IsActive key receiver)
    (next : after.service.nextChannel = world.service.nextChannel)
    (quiet : ∀ process ∈ after.processes,
      after.channel process.sender = world.channel process.sender)
    (quietFailing : ∀ entry ∈ after.failing,
      after.channel entry.1.sender = world.channel entry.1.sender) :
    TaskInv after where
  processes := keeps
  failing entry member := by
    obtain ⟨bound, gone⟩ := tasks.failing entry (failing.subset member)
    exact ⟨next ▸ bound, fun key isActive => gone key (fewer _ _ isActive)⟩
  distinct := tasks.distinct.sublist (processes.map _)
  distinctFailing := tasks.distinctFailing.sublist (failing.map _)
  silent process member := (quiet process member).trans
    (tasks.silent process (processes.subset member))
  silentFailing entry member := (quietFailing entry member).trans
    (tasks.silentFailing entry (failing.subset member))

theorem TaskInv.of_thinner (tasks : TaskInv world)
    (processes : after.processes = world.processes)
    (failing : after.failing = world.failing)
    (active : ∀ key receiver, after.service.IsActive key receiver ↔
      world.service.IsActive key receiver)
    (next : after.service.nextChannel = world.service.nextChannel)
    (channels : after.service.channels = world.service.channels) :
    TaskInv after := by
  refine tasks.of_sub (processes ▸ .refl _) (failing ▸ .refl _)
    (fun process member => (active _ _).mpr ?_)
    (fun key receiver => (active key receiver).mp) next
    (fun process _ => ?_) (fun entry _ => ?_)
  · exact tasks.processes process (processes ▸ member)
  · exact congrFun channels process.sender
  · exact congrFun channels entry.1.sender

end

section

variable {world : TxnWorld} {index : Nat} {process : Process}

def Left (before after : TxnService) (key : TxnKey) : Prop :=
  ∀ other receiver, after.IsActive other receiver ↔
    other ≠ key ∧ before.IsActive other receiver

variable (response : TransactionResponse)
  (iteration : Iteration ((_ : TxnKey) × TxnState))

theorem left_finish :
    Left world.service (world.finish index process response iteration).service
        process.key := by
  obtain ⟨lastCleanup, state, thins, result⟩ :=
    world.service.finishFederationTxn_service world.now iteration process.key
      process.sender response
  intro other receiver
  unfold TxnWorld.finish TxnService.IsActive
  rw [result]
  exact thins.lookup_active.trans isActive_insert_cached

theorem left_remove (error : TransactionError) :
    Left world.service (world.remove index process error).service process.key :=
  fun _ _ => isActive_erase

theorem TaskInv.keeps (tasks : TaskInv world) {after : TxnService}
    (found : world.processes[index]? = some process)
    (left : Left world.service after process.key) :
    ∀ other ∈ world.processes.eraseIdx index,
      after.IsActive other.key other.sender := by
  intro other member
  have isActive := tasks.processes other (mem_of_mem_eraseIdx member)
  refine (left _ _).mpr ⟨fun same => ?_, isActive⟩
  have mine := tasks.processes process (mem_of_getElem? found)
  unfold TxnService.IsActive at isActive mine
  rw [same, mine] at isActive
  injection isActive with equal
  injection equal with equal
  exact tasks.sender_ne_of_mem_eraseIdx found member equal.symm

theorem channel_finish (id : ChannelId) :
    (world.finish index process response iteration).channel id =
      if id = process.sender then ⟨some (.ok response), true⟩
      else world.channel id := by
  obtain ⟨lastCleanup, state, thins, result⟩ :=
    world.service.finishFederationTxn_service world.now iteration process.key
      process.sender response
  unfold TxnWorld.channel TxnWorld.finish
  rw [result]
  exact Function.update_apply ..

theorem channel_sendError (error : TransactionError) (id : ChannelId) :
    (world.sendError index process error).channel id =
      if id = process.sender then ⟨some (.error error), true⟩
      else world.channel id :=
  Function.update_apply ..

theorem channel_abort (id : ChannelId) :
    (world.abort index process).channel id =
      if id = process.sender then
        { world.channel process.sender with senderDropped := true }
      else world.channel id :=
  Function.update_apply ..

theorem finish_next :
    (world.finish index process response iteration).service.nextChannel =
        world.service.nextChannel ∧
      (world.finish index process response iteration).service.config =
        world.service.config ∧
      (world.finish index process response iteration).service.activeCount ≤
        world.service.activeCount := by
  obtain ⟨lastCleanup, state, thins, result⟩ :=
    world.service.finishFederationTxn_service world.now iteration process.key
      process.sender response
  unfold TxnWorld.finish
  rw [result]
  exact ⟨rfl, rfl, le_trans (countWith_le thins.sublist)
    countWith_insert_le⟩

section

variable (tasks : TaskInv world)
  (found : world.processes[index]? = some process)
include tasks found

theorem TaskInv.finish (response : TransactionResponse)
    (iteration : Iteration ((_ : TxnKey) × TxnState)) :
    TaskInv (world.finish index process response iteration) := by
  have left : Left world.service
      (world.finish index process response iteration).service process.key :=
    left_finish response iteration
  refine tasks.of_sub (eraseIdx_sublist _ _) (.refl _) (tasks.keeps found left)
    (fun key receiver isActive => ((left _ _).mp isActive).2)
    (finish_next response iteration).1 (fun other member => ?_)
    (fun entry member => ?_)
  · rw [channel_finish, if_neg (tasks.sender_ne_of_mem_eraseIdx found member)]
  · rw [channel_finish, if_neg
      (tasks.not_failing (mem_of_getElem? found) member)]

theorem TaskInv.abort : TaskInv (world.abort index process) := by
  refine tasks.of_sub (eraseIdx_sublist _ _) (.refl _)
    (fun other member => tasks.processes other (mem_of_mem_eraseIdx member))
    (fun key receiver isActive => isActive) rfl (fun other member => ?_)
    (fun entry member => ?_)
  · rw [channel_abort, if_neg (tasks.sender_ne_of_mem_eraseIdx found member)]
  · rw [channel_abort, if_neg
      (tasks.not_failing (mem_of_getElem? found) member)]

end

theorem TaskInv.sendError (tasks : TaskInv world) {error : TransactionError}
    (found : world.failing[index]? = some (process, error)) :
    TaskInv (world.sendError index process error) := by
  have member := mem_of_getElem? found
  refine tasks.of_sub (.refl _) (eraseIdx_sublist _ _)
    (fun other inside => tasks.processes other inside)
    (fun key receiver isActive => isActive) rfl (fun other inside => ?_)
    (fun entry inside => ?_)
  · rw [channel_sendError, if_neg (Ne.symm (tasks.not_failing inside member))]
  · rw [channel_sendError, if_neg]
    intro same
    obtain ⟨position, apart, isEntry⟩ := mem_eraseIdx_iff_getElem?.mp inside
    have listed : (world.failing.map (fun entry => entry.1.sender))[index]? =
        (world.failing.map (fun entry => entry.1.sender))[position]? := by
      rw [List.getElem?_map, List.getElem?_map, found, isEntry]
      exact congrArg some same.symm
    have inRange : index <
        (world.failing.map (fun entry => entry.1.sender)).length := by
      rw [length_map]
      exact (List.getElem?_eq_some_iff.mp found).1
    exact apart
      ((List.getElem?_inj inRange tasks.distinctFailing).mp listed).symm

theorem TaskInv.remove (tasks : TaskInv world) (table : TableInv world.service)
    (found : world.processes[index]? = some process)
    (error : TransactionError) :
    TaskInv (world.remove index process error) := by
  have left : Left world.service
      (world.remove index process error).service process.key :=
    left_remove error
  have member := mem_of_getElem? found
  have isActive := tasks.processes process member
  refine ⟨tasks.keeps found left, ?_, ?_, ?_, ?_, ?_⟩
  · intro entry listed
    rcases mem_append.mp listed with old | new
    · obtain ⟨bound, gone⟩ := tasks.failing entry old
      exact ⟨bound, fun key again => gone key ((left _ _).mp again).2⟩
    · rw [mem_singleton.mp new]
      refine ⟨table.known _ _ isActive, fun key again => ?_⟩
      obtain ⟨differs, same⟩ := (left _ _).mp again
      exact differs (table.single _ _ _ same isActive)
  · exact tasks.distinct.sublist ((eraseIdx_sublist _ _).map _)
  · have separate : ∀ sender ∈ world.failing.map (fun entry => entry.1.sender),
        ∀ other ∈ [process.sender], sender ≠ other := by
      intro sender listed other last same
      obtain ⟨entry, inside, rfl⟩ := mem_map.mp listed
      exact tasks.not_failing member inside (same.trans (mem_singleton.mp last))
    unfold TxnWorld.remove
    rw [map_append]
    exact nodup_append.mpr ⟨tasks.distinctFailing, nodup_singleton _, separate⟩
  · intro other listed
    exact tasks.silent other (mem_of_mem_eraseIdx listed)
  · exact forall_mem_snoc tasks.silentFailing (tasks.silent process member)

end

open Library ArcanaServer.Matrix List Function

def OneActivePerOrigin (world : TxnWorld) : Prop :=
  ∀ key other receiver last, world.service.IsActive key receiver →
    world.service.IsActive other last → key.origin = other.origin →
    key = other

def WithinMaximum (world : TxnWorld) : Prop := world.service.activeCount ≤
    world.service.config.maxConcurrentInboundTransactions

variable (history : TxnHistory)

/-- An active entry leaves by the end of its own run only. -/
def ActiveNeverEvicted : Prop :=
  ∀ entry ∈ history, ∀ key receiver,
    entry.before.service.IsActive key receiver →
    (entry.before.step entry.input).1.service.IsActive key receiver ∨
      Ends entry.before ⟨key, receiver⟩ entry.input

variable (entry : Entry TxnWorld TxnAction TxnOutcome) (key : TxnKey)

def Starts : Prop :=
  entry.before.table.lookup key = none ∧
    ∃ receiver, (entry.before.step entry.input).1.table.lookup key =
      some (.active receiver)

def Drops : Prop :=
  entry.before.table.lookup key ≠ none ∧
    (entry.before.step entry.input).1.table.lookup key = none

def DroppedBetweenStarts : Prop :=
  ∀ earlier first between second later key,
    history = earlier ++ first :: (between ++ second :: later) →
    Starts first key → Starts second key →
    ∃ entry ∈ between, Drops entry key

def Began (waiter : Waiter) : Prop :=
  ∃ entry ∈ history, entry.input = .getOrStart waiter.key ∧
    entry.output = .waits waiter ∧ entry.before.now = waiter.began ∧
    (entry.before.step entry.input).1.service.IsActive waiter.key
      waiter.receiver

def Waiter.run (waiter : Waiter) : Process := ⟨waiter.key, waiter.receiver⟩

/-- Every wait is answered with the result of the very run that was active. -/
def EveryWaiterReceives : Prop :=
  ∀ earlier entry later waiter answer, history = earlier ++ entry :: later →
    entry.output = .answered waiter answer →
    Began earlier waiter ∧
      ∃ result, answer = .result result ∧ Gave earlier waiter.run result

/-- The answer is the result of the run; without one the wait ends when it took
too long or the run has died. -/
def Fits (now : Nat) (waiter : Waiter) : WaitAnswer → Prop
  | .result result => Gave history waiter.run result
  | .tooLong => waiter.began + fromSecs waitTimeoutSecs ≤ now ∧
      ∀ result, ¬ Gave history waiter.run result
  | .unexpected => Died history waiter.run ∧
      ∀ result, ¬ Gave history waiter.run result

/-- The next time the waiting request is polled it is answered. -/
def AnsweredNext (world : TxnWorld) (waiter : Waiter) (answer : WaitAnswer) :
    Prop :=
  ∀ index, world.waiters[index]? = some waiter →
    (world.step (.poll index)).2 = .answered waiter answer

/-- A request that still waits is answered as soon as its run has given a result
or has died, and else when its time is over. -/
structure Served (world : TxnWorld) (waiter : Waiter) : Prop where
  began : Began history waiter
  result : ∀ result, Gave history waiter.run result →
    AnsweredNext world waiter (.result result)
  died : Died history waiter.run → AnsweredNext world waiter .unexpected
  late : (∀ result, ¬ Gave history waiter.run result) →
    ¬ Died history waiter.run →
    waiter.began + fromSecs waitTimeoutSecs ≤ world.now →
    AnsweredNext world waiter .tooLong

def WaitersServed (world : TxnWorld) : Prop :=
  (∀ earlier entry later waiter answer, history = earlier ++ entry :: later →
    entry.output = .answered waiter answer →
    Began earlier waiter ∧ Fits earlier entry.before.now waiter answer) ∧
  ∀ waiter ∈ world.waiters, Served history world waiter

inductive Change (world : TxnWorld) (action : TxnAction) (key : TxnKey) :
    Option TxnState → Option TxnState → Prop
  | same (value : Option TxnState) : Change world action key value value
  | started : Change world action key none
      (some (.active world.service.nextChannel))
  | ended (receiver : ChannelId) (ends : Ends world ⟨key, receiver⟩ action)
      (value : Option TxnState) :
      Change world action key (some (.active receiver)) value
  | evicted (cached : CachedTxnResponse) :
      Change world action key (some (.cached cached)) none

theorem Thins.change {before after : TxnTable} (thins : Thins before after)
    (world : TxnWorld) (action : TxnAction) (key : TxnKey) :
    Change world action key (before.lookup key) (after.lookup key) := by
  rcases thins.lookup key with same | ⟨cached, old, gone⟩
  · rw [same]
    exact .same _
  · rw [old, gone]
    exact .evicted cached

theorem change_step {world : TxnWorld} (tasks : TaskInv world)
    (action : TxnAction) (key : TxnKey) :
    Change world action key (world.table.lookup key)
      ((world.step action).1.table.lookup key) := by
  have active : ∀ (process : Process) (index : Nat),
      world.processes[index]? = some process →
      world.service.federationTxnState.lookup process.key =
        some (.active process.sender) :=
    fun process _ found => tasks.processes process (mem_of_getElem? found)
  have cases_ := world.step_cases action
  generalize world.step action = outcome at cases_
  cases cases_ with
  | idle | sendError | abort | answered | disconnected | elapsed =>
      exact .same _
  | @got started _ got =>
      cases got with
      | refused | cached | joined => exact .same _
      | started missing quiet room =>
          have missing : world.service.federationTxnState.lookup started =
              none := missing
          simp only [TxnWorld.table, TxnWorld.started]
          by_cases same : key = started
          · rw [same, AList.lookup_insert, missing]
            exact .started
          · rw [AList.lookup_insert_ne same]
            exact .same _
  | finish index process response iteration found =>
      obtain ⟨lastCleanup, state, thins, result⟩ :=
        world.service.finishFederationTxn_service world.now iteration
          process.key process.sender response
      simp only [TxnWorld.finish, TxnWorld.table, result]
      by_cases same : key = process.key
      · rw [same, active process index found]
        exact .ended _ (.finished index response iteration found) _
      · have kept := thins.change world (.finish index response iteration) key
        rw [AList.lookup_insert_ne same] at kept
        exact kept
  | remove index process error found =>
      simp only [TxnWorld.remove, TxnWorld.table,
        TxnService.removeFederationTxn]
      by_cases same : key = process.key
      · rw [same, active process index found]
        exact .ended _ (.removed index error found) _
      · rw [AList.lookup_erase_ne same]
        exact .same _
  | thinned _ state thins => exact thins.change world _ key

section

variable {world : TxnWorld} {index : Nat} {process : Process}

theorem TaskInv.started (tasks : TaskInv world) (table : TableInv world.service)
    {key : TxnKey} (missing : world.table.lookup key = none) :
    TaskInv (world.started key) := by
  have below : ∀ process ∈ world.processes,
      process.sender < world.service.nextChannel :=
    fun process member =>
      table.known _ _ (tasks.processes process member)
  have untouched : ∀ id, id < world.service.nextChannel →
      update world.service.channels world.service.nextChannel
        Channel.new id = world.service.channels id :=
    fun id bound => update_of_ne (ne_of_lt bound) _ _
  unfold TxnWorld.started
  refine ⟨?_, ?_, ?_, tasks.distinctFailing, ?_, ?_⟩
  · intro process member
    rcases mem_append.mp member with old | new
    · have isActive := tasks.processes process old
      refine isActive_insert_active.mpr (.inr ⟨?_, isActive⟩)
      intro same
      have found : world.table.lookup process.key =
        some (.active process.sender) := isActive
      rw [same, missing] at found
      cases found
    · rw [mem_singleton.mp new]
      exact isActive_insert_active.mpr (.inl ⟨rfl, rfl⟩)
  · intro entry member
    obtain ⟨bound, gone⟩ := tasks.failing entry member
    refine ⟨lt_trans bound (Nat.lt_succ_self _), fun other isActive => ?_⟩
    rcases isActive_insert_active.mp isActive with ⟨_, same⟩ | ⟨_, old⟩
    · exact absurd bound (same ▸ lt_irrefl _)
    · exact gone other old
  · rw [map_append]
    refine nodup_append.mpr ⟨tasks.distinct, nodup_singleton _,
      fun sender listed other last same => ?_⟩
    obtain ⟨process, member, rfl⟩ := mem_map.mp listed
    rw [mem_singleton.mp last] at same
    exact absurd (below process member) (same ▸ lt_irrefl _)
  · intro process member
    rcases mem_append.mp member with old | new
    · exact (untouched _ (below process old)).trans (tasks.silent process old)
    · rw [mem_singleton.mp new]
      exact update_self ..
  · intro entry member
    exact (untouched _ (tasks.failing entry member).1).trans
      (tasks.silentFailing entry member)

end

structure StateInv (world : TxnWorld) : Prop where
  table : TableInv world.service
  tasks : TaskInv world

theorem StateInv.thinned {world : TxnWorld} (inv : StateInv world)
    {state : TxnTable} (thins : Thins world.table state) :
    StateInv { world with
      service := { world.service with federationTxnState := state } } := by
  have active : ∀ key receiver,
      TxnService.IsActive { world.service with federationTxnState := state }
        key receiver ↔ world.service.IsActive key receiver :=
    fun key receiver => thins.lookup_active
  exact ⟨inv.table.fewer (fun key receiver => (active key receiver).mp)
    (countWith_le thins.sublist) rfl rfl inv.table.fresh,
    inv.tasks.of_thinner rfl rfl active rfl rfl⟩

theorem StateInv.step {world : TxnWorld} (inv : StateInv world)
    (action : TxnAction) : StateInv (world.step action).1 := by
  have fresh : ∀ process : Process, process.sender < world.service.nextChannel →
      ∀ id, world.service.nextChannel ≤ id → id ≠ process.sender :=
    fun process bound id above same =>
      absurd bound (not_lt.mpr (same ▸ above))
  have bound : ∀ (process : Process) (index : Nat),
      world.processes[index]? = some process →
      process.sender < world.service.nextChannel :=
    fun process _ found => inv.table.known _ _
      (inv.tasks.processes process (mem_of_getElem? found))
  have cases_ := world.step_cases action
  generalize world.step action = outcome at cases_
  cases cases_ with
  | idle => exact inv
  | got got =>
      cases got with
      | refused | cached => exact inv
      | joined =>
          exact ⟨inv.table, inv.tasks.of_thinner rfl rfl
            (fun _ _ => Iff.rfl) rfl rfl⟩
      | started missing quiet room =>
          exact ⟨inv.table.started quiet room,
            inv.tasks.started inv.table missing⟩
  | finish index process response iteration found =>
      obtain ⟨next, config, count⟩ :=
        @finish_next world index process response iteration
      refine ⟨inv.table.fewer (fun key receiver isActive =>
        ((left_finish response iteration _ _).mp isActive).2) count
        config next (fun id above => ?_),
        inv.tasks.finish found response iteration⟩
      have unchanged :=
        @channel_finish world index process response iteration id
      rw [if_neg (fresh process (bound process index found) id above)]
        at unchanged
      exact unchanged.trans (inv.table.fresh id above)
  | remove index process error found =>
      exact ⟨inv.table.fewer (fun key receiver isActive =>
        ((left_remove error _ _).mp isActive).2)
        (countWith_le (erase_sublist _)) rfl rfl
        inv.table.fresh, inv.tasks.remove inv.table found error⟩
  | sendError index process error found =>
      have bound := (inv.tasks.failing _ (mem_of_getElem? found)).1
      refine ⟨inv.table.fewer (fun _ _ => id) le_rfl rfl rfl
        (fun id above => ?_), inv.tasks.sendError found⟩
      exact (update_of_ne (fresh process bound id above) _
        _).trans (inv.table.fresh id above)
  | abort index process found =>
      refine ⟨inv.table.fewer (fun _ _ => id) le_rfl rfl rfl
        (fun id above => ?_), inv.tasks.abort found⟩
      exact (update_of_ne (fresh process (bound process index found) id above)
        _ _).trans (inv.table.fresh id above)
  | thinned _ state thins => exact inv.thinned thins
  | answered | disconnected | elapsed =>
      exact ⟨inv.table, inv.tasks.of_thinner rfl rfl (fun _ _ => Iff.rfl) rfl
        rfl⟩

end ArcanaServer.Transactions
