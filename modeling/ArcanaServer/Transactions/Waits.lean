import ArcanaServer.Transactions.Fates

namespace ArcanaServer.Transactions

open Library ArcanaServer.Matrix List

structure WaitInv (history : TxnHistory) (world : TxnWorld) : Prop where
  active : ∀ key receiver, world.service.IsActive key receiver →
    Fate history world ⟨key, receiver⟩
  waiters : ∀ waiter ∈ world.waiters,
    Began history waiter ∧ Fate history world waiter.run
  gave : ∀ run result, Gave history run result →
    (world.channel run.sender).value = some result
  died : ∀ run, Died history run → world.channel run.sender = ⟨none, true⟩

section

variable {history : TxnHistory} {world : TxnWorld} {run : Process}

theorem Fate.sender_lt (fate : Fate history world run)
    (inv : StateInv world) : run.sender < world.service.nextChannel := by
  by_contra above
  have new := inv.table.fresh run.sender (not_lt.mp above)
  cases fate with
  | running member =>
      exact above (inv.table.known _ _ (inv.tasks.processes run member))
  | failing error member => exact above (inv.tasks.failing _ member).1
  | given result gave value | dead died value =>
      unfold TxnWorld.channel at value
      rw [new] at value
      cases value

theorem Fate.step (fate : Fate history world run) (inv : StateInv world)
    (action : TxnAction) :
    Fate (history ++ [entryOf TxnWorld.step world action])
      (world.step action).1 run := by
  have gives : ∀ result, Gives world run result action →
      Gave (history ++ [entryOf TxnWorld.step world action]) run result :=
    fun _ => gave_last
  have dies : Dies world run action →
      Died (history ++ [entryOf TxnWorld.step world action]) run :=
    fun dies => ⟨_, mem_append_right _ mem_cons_self, dies⟩
  have cases_ := world.step_cases action
  generalize entryOf TxnWorld.step world action = entry at gives dies
  generalize world.step action = outcome at cases_
  cases cases_ with
  | idle | answered | disconnected | thinned | elapsed =>
      exact fate.keep entry id (fun _ => id) rfl
  | got got =>
      cases got with
      | refused | cached | joined => exact fate.keep entry id (fun _ => id) rfl
      | started missing quiet room =>
          exact fate.keep entry (mem_append_left _) (fun _ => id)
            (Function.update_of_ne (ne_of_lt (fate.sender_lt inv)) _ _)
  | finish index process response iteration found =>
      by_cases same : run = process
      · subst same
        refine .given _ (gives _ (.finished index response iteration found)) ?_
        rw [channel_finish, if_pos rfl]
      · refine fate.keep _
          (fun member => mem_eraseIdx_of_ne member found same) (fun _ => id) ?_
        rw [channel_finish, if_neg (fate.sender_ne inv.tasks
          (mem_of_getElem? found) same)]
  | remove index process error found =>
      by_cases same : run = process
      · subst same
        exact .failing error (mem_append_right _ mem_cons_self)
      · exact fate.keep _ (fun member => mem_eraseIdx_of_ne member found same)
          (fun _ member => mem_append_left _ member) rfl
  | sendError index process error found =>
      by_cases same : run = process
      · subst same
        refine .given _ (gives _ (.failed index error found)) ?_
        rw [channel_sendError, if_pos rfl]
      · refine fate.keep _ id (fun other member =>
          mem_eraseIdx_of_ne member found
            (fun equal => same (congrArg Prod.fst equal))) ?_
        rw [channel_sendError, if_neg (fate.sender_ne_failing inv.tasks
          (mem_of_getElem? found) same)]
  | abort index process found =>
      have member := mem_of_getElem? found
      by_cases same : run = process
      · subst same
        refine .dead (dies (.aborted index found)) ?_
        rw [channel_abort, if_pos rfl, inv.tasks.silent run member]
        rfl
      · refine fate.keep _
          (fun inside => mem_eraseIdx_of_ne inside found same) (fun _ => id) ?_
        rw [channel_abort, if_neg (fate.sender_ne inv.tasks member same)]

/-- Nothing more is sent on a channel that was sent on or dropped. -/
theorem settled_step (inv : StateInv world) {id : ChannelId}
    (notNew : world.channel id ≠ .new) (action : TxnAction) :
    (world.step action).1.channel id = world.channel id := by
  have silent : ∀ (process : Process) (index : Nat),
      world.processes[index]? = some process → id ≠ process.sender :=
    fun process _ found same => notNew
      (same ▸ inv.tasks.silent process (mem_of_getElem? found))
  have cases_ := world.step_cases action
  generalize world.step action = outcome at cases_
  cases cases_ with
  | idle | remove | answered | disconnected | thinned | elapsed => rfl
  | got got =>
      cases got with
      | refused | cached | joined => rfl
      | started missing quiet room =>
          have differs : id ≠ world.service.nextChannel := fun same =>
            notNew (inv.table.fresh id (same ▸ le_rfl))
          exact Function.update_of_ne differs _ _
  | finish index process response iteration found =>
      rw [channel_finish, if_neg (silent process index found)]
  | sendError index process error found =>
      rw [channel_sendError, if_neg]
      rintro rfl
      exact notNew (inv.tasks.silentFailing _ (mem_of_getElem? found))
  | abort index process found =>
      rw [channel_abort, if_neg (silent process index found)]

theorem channel_of_dies (inv : StateInv world) {action : TxnAction}
    (dies : Dies world run action) :
    (world.step action).1.channel run.sender = ⟨none, true⟩ := by
  cases dies with
  | aborted index found =>
      simp only [TxnWorld.step, found]
      rw [channel_abort, if_pos rfl,
        inv.tasks.silent run (mem_of_getElem? found)]
      rfl

theorem value_of_gives {result : TransactionResult}
    {action : TxnAction} (gives : Gives world run result action) :
    ((world.step action).1.channel run.sender).value = some result := by
  cases gives with
  | finished index response iteration found =>
      simp only [TxnWorld.step, found]
      rw [channel_finish, if_pos rfl]
  | failed index error found =>
      simp only [TxnWorld.step, found]
      rw [channel_sendError, if_pos rfl]

theorem Began.snoc {waiter : Waiter} (began : Began history waiter)
    (entry : Entry TxnWorld TxnAction TxnOutcome) :
    Began (history ++ [entry]) waiter := by
  obtain ⟨earlier, member, facts⟩ := began
  exact ⟨earlier, mem_append_left _ member, facts⟩

theorem waiter_step (waiter : Waiter) (action : TxnAction)
    (member : waiter ∈ (world.step action).1.waiters) :
    waiter ∈ world.waiters ∨
      (action = .getOrStart waiter.key ∧ (world.step action).2 = .waits waiter ∧
        world.now = waiter.began ∧
        (world.step action).1.service.IsActive waiter.key waiter.receiver ∧
        ((world.service.IsActive waiter.key waiter.receiver) ∨
          waiter.run ∈ (world.step action).1.processes)) := by
  have cases_ := world.step_cases action
  generalize world.step action = outcome at cases_ member
  cases cases_ with
  | idle | finish | remove | sendError | abort | thinned | elapsed =>
      exact .inl member
  | answered | disconnected => exact .inl (mem_of_mem_eraseIdx member)
  | got got =>
      cases got with
      | refused | cached => exact .inl member
      | joined receiver found =>
          refine (mem_append.mp member).imp_right (fun last => ?_)
          rw [mem_singleton.mp last]
          exact ⟨rfl, rfl, rfl, found, .inl found⟩
      | started missing quiet room =>
          refine (mem_append.mp member).imp_right (fun last => ?_)
          rw [mem_singleton.mp last]
          exact ⟨rfl, rfl, rfl, isActive_insert_active.mpr (.inl ⟨rfl, rfl⟩),
            .inr (mem_append_right _ mem_cons_self)⟩

theorem active_step (action : TxnAction) {key : TxnKey} {receiver : ChannelId}
    (isActive : (world.step action).1.service.IsActive key receiver) :
    world.service.IsActive key receiver ∨
      ⟨key, receiver⟩ ∈ (world.step action).1.processes := by
  have cases_ := world.step_cases action
  generalize world.step action = outcome at cases_ isActive
  cases cases_ with
  | idle | sendError | abort | answered | disconnected | elapsed =>
      exact .inl isActive
  | got got =>
      cases got with
      | refused | cached | joined => exact .inl isActive
      | started missing quiet room =>
          rcases isActive_insert_active.mp isActive with
            ⟨rfl, rfl⟩ | ⟨_, old⟩
          · exact .inr (mem_append_right _ mem_cons_self)
          · exact .inl old
  | finish index process response iteration found =>
      exact .inl ((left_finish response iteration _ _).mp isActive).2
  | remove index process error found =>
      exact .inl ((left_remove error _ _).mp isActive).2
  | thinned _ state thins => exact .inl (thins.lookup_active.mp isActive)

theorem WaitInv.step (waits : WaitInv history world) (inv : StateInv world)
    (action : TxnAction) :
    WaitInv (history ++ [entryOf TxnWorld.step world action])
      (world.step action).1 where
  active key receiver isActive := by
    rcases active_step action isActive with before | started
    · exact (waits.active key receiver before).step inv action
    · exact .running started
  waiters waiter member := by
    rcases waiter_step waiter action member with old | new
    · obtain ⟨began, fate⟩ := waits.waiters waiter old
      exact ⟨began.snoc _, fate.step inv action⟩
    · obtain ⟨isStart, isWait, isNow, isActive, source⟩ := new
      refine ⟨⟨_, mem_append_right _ mem_cons_self, isStart,
        isWait, isNow, isActive⟩, ?_⟩
      rcases source with before | running
      · exact (waits.active _ _ before).step inv action
      · exact .running running
  gave run result gave := by
    rcases gave_snoc gave with earlier | gives
    · have value := waits.gave run result earlier
      rw [settled_step inv _ action]
      · exact value
      · intro new
        rw [new] at value
        cases value
    · exact value_of_gives gives
  died run died := by
    rcases died_snoc died with earlier | dies
    · have value := waits.died run earlier
      rw [settled_step inv _ action]
      · exact value
      · intro new
        cases value.symm.trans new
    · exact channel_of_dies inv dies

theorem fits_of_answer (waits : WaitInv history world) (inv : StateInv world)
    {waiter : Waiter} {answer : WaitAnswer} (member : waiter ∈ world.waiters)
    (answers : waitForResult (world.channel waiter.receiver) waiter.began
      world.now = some answer) :
    Fits history world.now waiter answer := by
  obtain ⟨_, fate⟩ := waits.waiters waiter member
  have silent : (world.channel waiter.receiver).value = none →
      ∀ result, ¬ Gave history waiter.run result := by
    intro none_ result gave
    have value := waits.gave waiter.run result gave
    rw [Waiter.run, none_] at value
    cases value
  unfold waitForResult at answers
  split at answers
  next result value =>
    cases answers
    cases fate with
    | running running =>
        have new := inv.tasks.silent _ running
        rw [Waiter.run] at new
        rw [new] at value
        cases value
    | failing error failing =>
        have new := inv.tasks.silentFailing _ failing
        rw [Waiter.run] at new
        rw [new] at value
        cases value
    | given last gave same =>
        rw [Waiter.run, value] at same
        cases same
        exact gave
    | dead died same =>
        rw [Waiter.run] at same
        rw [same] at value
        cases value
  next value =>
    split at answers
    next dropped =>
      cases answers
      refine ⟨?_, silent value⟩
      cases fate with
      | running running =>
          have new := inv.tasks.silent _ running
          rw [Waiter.run] at new
          rw [new] at dropped
          cases dropped
      | failing error failing =>
          have new := inv.tasks.silentFailing _ failing
          rw [Waiter.run] at new
          rw [new] at dropped
          cases dropped
      | given last gave same =>
          rw [Waiter.run, value] at same
          cases same
      | dead died same => exact died
    · split at answers
      next late =>
        cases answers
        exact ⟨late, silent value⟩
      · cases answers

theorem answeredNext_of_wait {waiter : Waiter} {answer : WaitAnswer}
    (answers : waitForResult (world.channel waiter.receiver) waiter.began
      world.now = some answer) : AnsweredNext world waiter answer := by
  intro index found
  have answers : waitForResult (world.service.channels waiter.receiver)
    waiter.began world.now = some answer := answers
  simp only [TxnWorld.step, found, TxnWorld.poll, answers]

theorem served_of_wait (waits : WaitInv history world) (inv : StateInv world)
    {waiter : Waiter} (member : waiter ∈ world.waiters) :
    Served history world waiter := by
  obtain ⟨began, fate⟩ := waits.waiters waiter member
  refine ⟨began, fun result gave => answeredNext_of_wait ?_,
    fun died => answeredNext_of_wait ?_,
    fun none alive late => answeredNext_of_wait ?_⟩
  · have value := waits.gave waiter.run result gave
    rw [Waiter.run] at value
    unfold waitForResult
    rw [value]
  · have dropped := waits.died waiter.run died
    rw [Waiter.run] at dropped
    rw [dropped]
    rfl
  · have new : world.channel waiter.receiver = .new := by
      cases fate with
      | running running => exact inv.tasks.silent _ running
      | failing error failing => exact inv.tasks.silentFailing _ failing
      | given result gave value => exact absurd gave (none result)
      | dead died value => exact absurd died alive
    unfold waitForResult
    simp only [new, Channel.new, Bool.false_eq_true, if_false, if_pos late]

theorem answered_step {action : TxnAction} {waiter : Waiter}
    {answer : WaitAnswer}
    (answered : (world.step action).2 = .answered waiter answer) :
    waiter ∈ world.waiters ∧
      waitForResult (world.channel waiter.receiver) waiter.began world.now =
        some answer := by
  have cases_ := world.step_cases action
  generalize world.step action = outcome at cases_ answered
  cases cases_ with
  | idle | finish | remove | sendError | abort | disconnected | thinned
  | elapsed => cases answered
  | got got => cases got <;> cases answered
  | answered index other given found answers =>
      cases answered
      exact ⟨mem_of_getElem? found, answers⟩

end

/-- A key that was started has its entry until that is dropped. -/
structure DropInv (history : TxnHistory) (world : TxnWorld) : Prop where
  kept : ∀ earlier entry later key, history = earlier ++ entry :: later →
    Starts entry key → (∃ drop ∈ later, Drops drop key) ∨
      world.table.lookup key ≠ none
  between : DroppedBetweenStarts history

variable {history : TxnHistory} {world : TxnWorld}

theorem DropInv.step (drops : DropInv history world) (action : TxnAction) :
    DropInv (history ++ [entryOf TxnWorld.step world action])
      (world.step action).1 where
  kept earlier entry later key split starts := by
    rcases snoc_split split with isLast | isEarlier
    · obtain ⟨_, rfl, rfl⟩ := isLast
      obtain ⟨_, receiver, isActive⟩ := starts
      refine .inr (fun missing => ?_)
      have isActive : (world.step action).1.table.lookup key =
        some (.active receiver) := isActive
      rw [missing] at isActive
      cases isActive
    · obtain ⟨rest, rfl, same⟩ := isEarlier
      rcases drops.kept earlier entry rest key same starts with
        dropped | present
      · obtain ⟨drop, member, isDrop⟩ := dropped
        exact .inl ⟨drop, mem_append_left _ member, isDrop⟩
      · by_cases gone : (world.step action).1.table.lookup key = none
        · exact .inl ⟨_, mem_append_right _ mem_cons_self, present, gone⟩
        · exact .inr gone
  between earlier first between second later key split starts again := by
    have regrouped : history ++ [entryOf TxnWorld.step world action] =
        (earlier ++ first :: between) ++ second :: later := by
      rw [split, append_assoc, cons_append]
    rcases snoc_split regrouped with isLast | isEarlier
    · obtain ⟨_, same, rfl⟩ := isLast
      exact (drops.kept earlier first between key same.symm
        starts).resolve_right (fun present => present again.1)
    · obtain ⟨rest, rfl, same⟩ := isEarlier
      rw [append_assoc, cons_append] at same
      exact drops.between earlier first between second rest key same starts
        again

theorem activeNeverEvicted_snoc (never : ActiveNeverEvicted history)
    (inv : StateInv world) (action : TxnAction) :
    ActiveNeverEvicted (history ++ [entryOf TxnWorld.step world action]) := by
  intro entry member key receiver isActive
  rcases mem_append.mp member with earlier | last
  · exact never entry earlier key receiver isActive
  · rw [mem_singleton.mp last] at isActive ⊢
    have changed := change_step inv.tasks action key
    have before : world.table.lookup key = some (.active receiver) := isActive
    rw [before] at changed
    generalize after : (world.step action).1.table.lookup key = value at changed
    cases changed with
    | same value => exact .inl after
    | ended last ends value => exact .inr ends

def Answered (history : TxnHistory) : Prop :=
  ∀ earlier entry later waiter answer, history = earlier ++ entry :: later →
    entry.output = .answered waiter answer →
    Began earlier waiter ∧ Fits earlier entry.before.now waiter answer

theorem Answered.snoc (answered : Answered history)
    (waits : WaitInv history world) (inv : StateInv world) (action : TxnAction) :
    Answered (history ++ [entryOf TxnWorld.step world action]) := by
  intro earlier entry later waiter answer split output
  rcases snoc_split split with isLast | isEarlier
  · obtain ⟨_, rfl, rfl⟩ := isLast
    obtain ⟨member, answers⟩ := answered_step output
    exact ⟨(waits.waiters waiter member).1,
      fits_of_answer waits inv member answers⟩
  · obtain ⟨rest, rfl, same⟩ := isEarlier
    exact answered earlier entry rest waiter answer same output

structure TxnRunInv (history : TxnHistory) (world : TxnWorld) : Prop where
  state : StateInv world
  waits : WaitInv history world
  drops : DropInv history world
  never : ActiveNeverEvicted history
  answered : Answered history

theorem boot_inv (config : TxnConfig) (now : Nat) :
    TxnRunInv [] (.boot config now) := by
  have noEntry : ∀ key receiver,
      ¬ (TxnWorld.boot config now).service.IsActive key receiver := by
    intro key receiver isActive
    have found : (∅ : TxnTable).lookup key = some (.active receiver) := isActive
    rw [AList.lookup_empty] at found
    cases found
  refine ⟨⟨⟨?_, ?_, Nat.zero_le _, ?_, fun _ _ => rfl⟩, ⟨?_, ?_, .nil, .nil,
    ?_, ?_⟩⟩, ⟨?_, ?_, ?_, ?_⟩, ⟨?_, ?_⟩, ?_, ?_⟩
  · exact fun key other receiver last first _ _ =>
      absurd first (noEntry _ _)
  · exact fun key other receiver first _ => absurd first (noEntry _ _)
  · exact fun key receiver first => absurd first (noEntry _ _)
  · exact fun process member => absurd member not_mem_nil
  · exact fun entry member => absurd member not_mem_nil
  · exact fun process member => absurd member not_mem_nil
  · exact fun entry member => absurd member not_mem_nil
  · exact fun key receiver isActive => absurd isActive (noEntry _ _)
  · exact fun waiter member => absurd member not_mem_nil
  · rintro run result ⟨entry, member, _⟩
    cases member
  · rintro run ⟨entry, member, _⟩
    cases member
  · intro earlier entry later key split
    simp at split
  · intro earlier first between second later key split
    simp at split
  · exact fun entry member => absurd member not_mem_nil
  · intro earlier entry later waiter answer split
    simp at split

theorem TxnRunInv.step (inv : TxnRunInv history world) (action : TxnAction) :
    TxnRunInv (history ++ [entryOf TxnWorld.step world action])
      (world.step action).1 :=
  ⟨inv.state.step action, inv.waits.step inv.state action,
    inv.drops.step action,
    activeNeverEvicted_snoc inv.never inv.state action,
    inv.answered.snoc inv.waits inv.state action⟩

theorem transactionTable_safe {config : TxnConfig} {now : Nat}
    {history : TxnHistory} {world : TxnWorld}
    (reaches : Reaches TxnWorld.step (.boot config now) history world) :
    OneActivePerOrigin world ∧ WithinMaximum world ∧
      ActiveNeverEvicted history ∧ DroppedBetweenStarts history ∧
      WaitersServed history world := by
  have inv : TxnRunInv history world := by
    induction reaches with
    | start => exact boot_inv config now
    | next action _ inv => exact inv.step action
  refine ⟨inv.state.table.origins, inv.state.table.maximum, inv.never,
    inv.drops.between, inv.answered, fun waiter member => ?_⟩
  exact served_of_wait inv.waits inv.state member

namespace TwoRequests

def key : TxnKey := ⟨"b.h", "1"⟩

def config : TxnConfig := ⟨1, 7200, 8192⟩

def joined : List TxnAction :=
  [.getOrStart key, .getOrStart key, .finish 0 ⟨[]⟩ (.inOrder _), .poll 0]

theorem joined_safe :
    (run TxnWorld.step (.boot config 0) joined).2.waiters = [⟨key, 0, 0⟩] ∧
      OneActivePerOrigin (run TxnWorld.step (.boot config 0) joined).2 ∧
      WithinMaximum (run TxnWorld.step (.boot config 0) joined).2 ∧
      ActiveNeverEvicted (run TxnWorld.step (.boot config 0) joined).1 ∧
      DroppedBetweenStarts (run TxnWorld.step (.boot config 0) joined).1 ∧
      WaitersServed (run TxnWorld.step (.boot config 0) joined).1
        (run TxnWorld.step (.boot config 0) joined).2 :=
  ⟨by decide +kernel, transactionTable_safe (reaches_run _ _ _)⟩

def late : List TxnAction := [.getOrStart key, .elapse (fromSecs 50), .poll 0]

theorem late_unserved : ¬ ∀ config now history world,
      Reaches TxnWorld.step (.boot config now) history world →
      OneActivePerOrigin world ∧ WithinMaximum world ∧
        ActiveNeverEvicted history ∧ DroppedBetweenStarts history ∧
        EveryWaiterReceives history := by
  intro all
  have received := (all config 0 _ _
    (reaches_run TxnWorld.step (.boot config 0) late)).2.2.2.2
  let history := (run TxnWorld.step (.boot config 0) late).1
  obtain ⟨_, result, isResult, _⟩ := received (history.take 2) history[2] []
    ⟨key, 0, 0⟩ .tooLong rfl rfl
  cases isResult

end TwoRequests

end ArcanaServer.Transactions
