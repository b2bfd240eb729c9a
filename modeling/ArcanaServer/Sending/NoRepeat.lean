import ArcanaServer.Sending.QueueInv

namespace ArcanaServer.Sending

open Library List SenderWorld.Netburst

abbrev SenderHistory := List (Entry SenderWorld SenderAction SenderOutcome)

/-- A transaction with the key has been answered, and no row was queued under
the key by then, nor since. -/
def Delivered (history : SenderHistory) (dest : Destination) (key : Key) :
    Prop :=
  ∃ earlier entry later txn, history = earlier ++ entry :: later ∧
    entry.before.Answers txn entry.input ∧ txn.dest = dest ∧
    key ∈ txn.events.map Prod.fst ∧
    ¬ entry.before.tables.servernameeventData.hasKey key ∧
    ∀ after ∈ later, key ∉ (after.before.queuedBy after.input).map
      (fun queued => queued.2.1)

/-- No transaction in flight contains an event that has been delivered. -/
def NothingRepeated (history : SenderHistory) (world : SenderWorld) : Prop :=
  ∀ txn ∈ world.futures, ∀ item ∈ txn.events, item.1 ≠ [] →
    ¬ Delivered history txn.dest item.1

def SenderWorld.hasRow (world : SenderWorld) : SenderAction → Bool
  | .handleRequest index _ =>
      match world.waiting[index]? with
      | some msg => (world.statuses msg.dest).isSome ||
          msg.queueId.isEmpty ||
          world.tables.servernameeventData.rows.any
            (fun row => row.1 = msg.queueId)
      | none => true
  | _ => true

def isRestart : SenderAction → Bool
  | .restart _ => true
  | _ => false

theorem SenderWorld.hasKey_of_hasRow {world : SenderWorld} {index : Nat}
    {edus : Option (List EduBuf × Nat)} {msg : Msg}
    (hasRow : world.hasRow (.handleRequest index edus) = true)
    (found : world.waiting[index]? = some msg)
    (unknown : world.statuses msg.dest = none) (notEmpty : msg.queueId ≠ []) :
    world.tables.servernameeventData.hasKey msg.queueId := by
  simp only [SenderWorld.hasRow, found, unknown, Option.isSome_none,
    Bool.false_or, Bool.or_eq_true, List.isEmpty_iff, any_eq_true,
    decide_eq_true_eq] at hasRow
  obtain ⟨row, member, same⟩ := hasRow.resolve_left notEmpty
  exact ⟨row.2, same ▸ member⟩

/-- What is delivered after one more step was delivered before and is not queued
by the step, or is delivered by it. -/
theorem delivered_snoc {history : SenderHistory} {world : SenderWorld}
    {action : SenderAction} {dest : Destination} {key : Key}
    (delivered : Delivered
      (history ++ [entryOf SenderWorld.step world action]) dest key) :
    (Delivered history dest key ∧ key ∉ (world.queuedBy action).map
      (fun queued => queued.2.1)) ∨
    ∃ txn, world.Answers txn action ∧ txn.dest = dest ∧
      key ∈ txn.events.map Prod.fst ∧
      ¬ world.tables.servernameeventData.hasKey key := by
  obtain ⟨earlier, entry, later, txn, split, answers, isDest, inside, free,
    quiet⟩ := delivered
  rcases snoc_split split with isLast | isEarlier
  · obtain ⟨_, _, rfl⟩ := isLast
    exact .inr ⟨txn, answers, isDest, inside, free⟩
  · obtain ⟨rest, rfl, same⟩ := isEarlier
    exact .inl ⟨⟨earlier, entry, rest, txn, same, answers, isDest, inside,
      free, fun after member => quiet after (mem_append_left _ member)⟩,
      quiet _ (mem_append_right _ mem_cons_self)⟩

/-- A key of a row or of a transaction starts as those of the destination do. -/
structure KeyInv (world : SenderWorld) : Prop where
  waiting : ∀ msg ∈ world.waiting, msg.queueId ≠ [] →
    msg.dest.getPrefix <+: msg.queueId
  futures : ∀ txn ∈ world.futures, ∀ item ∈ txn.events, item.1 ≠ [] →
    txn.dest.getPrefix <+: item.1

/-- What a step does to the rows and the transactions, key by key. -/
structure StepKeys (world : SenderWorld) (action : SenderAction)
    (after : SenderWorld) : Prop where
  queued : ∀ key, after.tables.servernameeventData.hasKey key →
    world.tables.servernameeventData.hasKey key ∨
      key ∈ (world.queuedBy action).map (fun queued => queued.2.1)
  active : ∀ key, after.tables.servercurrenteventData.hasKey key →
    world.tables.servernameeventData.hasKey key ∨
      world.tables.servercurrenteventData.hasKey key ∧
        ∀ txn, world.Answers txn action → ¬ txn.dest.getPrefix <+: key
  futures : ∀ txn ∈ after.futures, (txn ∈ world.futures ∧
      ∀ answered, world.Answers answered action → answered.dest ≠ txn.dest) ∨
    ∀ item ∈ txn.events, item.1 ≠ [] →
      world.tables.servernameeventData.hasKey item.1 ∨
        world.tables.servercurrenteventData.hasKey item.1 ∧
          ∀ answered, ¬ world.Answers answered action

theorem StepKeys.of_quiet {world after : SenderWorld} {action : SenderAction}
    (quiet : ∀ txn, ¬ world.Answers txn action)
    (queued : ∀ key, after.tables.servernameeventData.hasKey key →
      world.tables.servernameeventData.hasKey key ∨
        key ∈ (world.queuedBy action).map (fun queued => queued.2.1))
    (active : ∀ key, after.tables.servercurrenteventData.hasKey key →
      world.tables.servercurrenteventData.hasKey key)
    (futures : ∀ txn ∈ after.futures, txn ∈ world.futures) :
    StepKeys world action after where
  queued := queued
  active key member :=
    .inr ⟨active key member, fun txn answers => absurd answers (quiet txn)⟩
  futures txn member := .inl ⟨futures txn member,
    fun answered answers => absurd answers (quiet answered)⟩

section

variable {world after : SenderWorld} {index : Nat} {msg : Msg}
  {txn : Transaction}

theorem hasKey_erasePrefix {rows : Rows} {start key : Key}
    (has : (rows.erasePrefix start).hasKey key) :
    rows.hasKey key ∧ ¬ start <+: key := by
  obtain ⟨value, member⟩ := has
  obtain ⟨old, apart⟩ := SortedTable.mem_erasePrefix.mp member
  exact ⟨⟨value, old⟩, apart⟩

theorem hasKey_markAsActive_queued {tables : Tables} {events : List QueueItem}
    {key : Key}
    (has : (tables.markAsActive events).servernameeventData.hasKey key) :
    tables.servernameeventData.hasKey key := by
  obtain ⟨value, member⟩ := has
  exact ⟨value, (Tables.mem_markAsActive_queued.mp member).1⟩

theorem hasKey_markAsActive_active {tables : Tables} {events : List QueueItem}
    {key : Key}
    (has : (tables.markAsActive events).servercurrenteventData.hasKey key) :
    tables.servercurrenteventData.hasKey key ∨
      ∃ event ∈ events, event.1 ≠ [] ∧ key = event.1 := by
  obtain ⟨value, member⟩ := has
  refine (Tables.active_of_markAsActive member).imp (fun old => ⟨value, old⟩)
    (fun new => ?_)
  obtain ⟨event, inside, notEmpty, same⟩ := new
  exact ⟨event, inside, notEmpty, congrArg Prod.fst same⟩

theorem hasKey_of_mem_rowsFor {rows : Rows} {dest : Destination}
    {item : QueueItem}
    (member : item ∈ (rows.scanPrefix dest.getPrefix).filterMap
      (fun row => (readRow row).map Prod.fst)) :
    rows.hasKey item.1 ∧ dest.getPrefix <+: item.1 := by
  obtain ⟨row, inside, starts, other, read⟩ := Tables.mem_rowsFor.mp member
  obtain ⟨found, _, same⟩ := Option.map_eq_some_iff.mp read
  obtain rfl : (row.1, found.2) = item := congrArg Prod.fst same
  exact ⟨⟨row.2, inside⟩, starts⟩

theorem StepKeys.requested (edus : Option (List EduBuf × Nat))
    (found : world.waiting[index]? = some msg)
    (hasRow : world.hasRow (.handleRequest index edus) = true)
    (requested : SenderWorld.Requested
      { world with waiting := world.waiting.eraseIdx index } msg after) :
    StepKeys world (.handleRequest index edus) after := by
  have quiet : ∀ txn, ¬ world.Answers txn (.handleRequest index edus) := by
    intro txn answers
    cases answers
  cases requested with
  | refused =>
      exact .of_quiet quiet (fun key => .inl) (fun key => id) (fun txn => id)
  | retried tries time failed =>
      refine ⟨fun key => .inl, fun key has => .inr ⟨has,
        fun txn answers => absurd answers (quiet txn)⟩, fun txn member => ?_⟩
      rcases mem_append.mp member with old | last
      · exact .inl ⟨old, fun answered answers =>
          absurd answers (quiet answered)⟩
      · rw [mem_singleton.mp last]
        exact .inr (fun item inside _ =>
          .inr ⟨(hasKey_of_mem_rowsFor inside).1, quiet⟩)
  | nothingLeft tries time failed =>
      exact .of_quiet quiet (fun key => .inl) (fun key => id) (fun txn => id)
  | started educount edus noKeys unknown =>
      have row : msg.queueId ≠ [] →
          world.tables.servernameeventData.hasKey msg.queueId :=
        SenderWorld.hasKey_of_hasRow hasRow found unknown
      refine ⟨fun key has => .inl (hasKey_markAsActive_queued has),
        fun key has => ?_, fun txn member => ?_⟩
      · rcases hasKey_markAsActive_active has with old | new
        · exact .inr ⟨old, fun txn answers => absurd answers (quiet txn)⟩
        · obtain ⟨event, inside, notEmpty, rfl⟩ := new
          rw [mem_singleton.mp inside] at notEmpty ⊢
          exact .inl (row notEmpty)
      · rcases mem_append.mp member with old | last
        · exact .inl ⟨old, fun answered answers =>
            absurd answers (quiet answered)⟩
        · rw [mem_singleton.mp last]
          refine .inr (fun item inside notEmpty => ?_)
          rcases mem_cons.mp inside with isMsg | isEdu
          · rw [isMsg] at notEmpty ⊢
            exact .inl (row notEmpty)
          · exact absurd (noKeys item isEdu) notEmpty

theorem hasKey_of_mem_drained {newEvents : List QueueItem} {dest : Destination}
    (queued : newEvents =
      (world.tables.queuedRequests dest).take dequeueLimit) :
    ∀ event ∈ newEvents, world.tables.servernameeventData.hasKey event.1 ∧
        dest.getPrefix <+: event.1 := by
  intro event inside
  rw [queued] at inside
  exact hasKey_of_mem_rowsFor (mem_of_mem_take inside)

theorem StepKeys.answered {action : SenderAction} (loop : LoopInv world)
    (found : world.futures[index]? = some txn)
    (only : ∀ other, world.Answers other action → other = txn)
    (answered : SenderWorld.Answered (world.take index) txn.dest after) :
    StepKeys world action after := by
  have free := (loop.take found).1
  have apart : ∀ other ∈ (world.take index).futures, ∀ answered,
      world.Answers answered action → answered.dest ≠ other.dest := by
    intro other member answered answers same
    have flying : other.dest ∈ (world.take index).inFlight :=
      mem_map_of_mem member
    rw [← same, only answered answers] at flying
    exact free.gone flying
  cases answered with
  | drained newEvents notEmpty queued =>
      have fromQueue : ∀ event ∈ newEvents,
          world.tables.servernameeventData.hasKey event.1 :=
        fun event inside => (hasKey_of_mem_drained queued event inside).1
      refine ⟨fun key has => .inl (hasKey_markAsActive_queued has),
        fun key has => ?_, fun other member => ?_⟩
      · rcases hasKey_markAsActive_active has with old | new
        · obtain ⟨kept, outside⟩ := hasKey_erasePrefix old
          exact .inr ⟨kept, fun other answers => only other answers ▸ outside⟩
        · obtain ⟨event, inside, _, rfl⟩ := new
          exact .inl (fromQueue event inside)
      · rcases mem_append.mp member with old | last
        · exact .inl ⟨mem_of_mem_eraseIdx old, apart other old⟩
        · rw [mem_singleton.mp last]
          exact .inr (fun item inside _ => .inl (fromQueue item inside))
  | done =>
      refine ⟨fun key => .inl, fun key has => ?_, fun other member =>
        .inl ⟨mem_of_mem_eraseIdx member, apart other member⟩⟩
      obtain ⟨kept, outside⟩ := hasKey_erasePrefix has
      exact .inr ⟨kept, fun other answers => only other answers ▸ outside⟩

theorem handleResponseErr_same {dest : Destination}
    (answered : SenderWorld.handleResponseErr dest world = some after) :
    after.tables = world.tables ∧ after.waiting = world.waiting ∧
      after.futures = world.futures := by
  unfold SenderWorld.handleResponseErr at answered
  split at answered
  · cases answered
    exact ⟨rfl, rfl, rfl⟩
  · cases answered
    exact ⟨rfl, rfl, rfl⟩
  · cases answered
    exact ⟨rfl, rfl, rfl⟩
  · cases answered

theorem StepKeys.responded (loop : LoopInv world)
    (found : world.futures[index]? = some txn) (success : Bool) :
    StepKeys world (.handleResponse index success)
      ((world.take index).handleResponse txn success).1 := by
  unfold SenderWorld.handleResponse
  cases success with
  | true =>
      simp only [if_true]
      refine .answered loop found (fun other answers => ?_)
        (SenderWorld.handleResponseOk_cases _ _)
      cases answers with
      | responded _ going same => exact Option.some.inj (same.symm.trans found)
  | false =>
      have quiet : ∀ other,
          ¬ world.Answers other (.handleResponse index false) := by
        intro other answers
        cases answers
      simp only [Bool.false_eq_true, if_false]
      split
      next after answered =>
        obtain ⟨tables, _, futures⟩ := handleResponseErr_same answered
        refine .of_quiet quiet (fun key has => .inl ?_) (fun key has => ?_)
          (fun other member => ?_)
        · exact tables ▸ has
        · exact tables ▸ has
        · rw [futures] at member
          exact mem_of_mem_eraseIdx member
      · exact .of_quiet quiet (fun key => .inl) (fun key => id)
          (fun other => mem_of_mem_eraseIdx)

theorem StepKeys.finished (loop : LoopInv world)
    (found : world.futures[index]? = some txn) (success : Bool) :
    StepKeys world (.finishResponse index success)
      ((world.take index).finishResponse txn success) := by
  unfold SenderWorld.finishResponse
  cases success with
  | true =>
      have only : ∀ other,
          world.Answers other (.finishResponse index true) → other = txn := by
        intro other answers
        cases answers with
        | finished _ stopped same =>
            exact Option.some.inj (same.symm.trans found)
      have done := StepKeys.answered loop found only .done
      exact ⟨done.queued, done.active, done.futures⟩
  | false =>
      refine .of_quiet (fun other answers => ?_) (fun key => .inl)
        (fun key => id) (fun other => mem_of_mem_eraseIdx)
      cases answers

theorem StepKeys.sent {event : SendingEvent} {dests : List Destination}
    {action : SenderAction} (quiet : ∀ txn, ¬ world.Answers txn action)
    (queues : world.queuedBy action = world.queuedItems event dests) :
    StepKeys world action (SenderWorld.sendTo event dests world) := by
  have sent := sendTo_sent event dests world
  refine .of_quiet quiet (fun key has => ?_) (fun key has => ?_)
    (fun other member => ?_)
  · obtain ⟨value, member⟩ := has
    refine (sent.mem_queued member).imp (fun old => ⟨value, old⟩)
      (fun new => ?_)
    obtain ⟨request, inside, same⟩ := new
    rw [queues]
    refine mem_map.mpr ⟨_, mem_map_of_mem inside, ?_⟩
    exact (congrArg Prod.fst same).symm
  · rw [sent.active] at has
    exact has
  · rw [sent.futures] at member
    exact member

theorem StepKeys.cleaned (appserviceId userId pushKey : Option Utf8) :
    StepKeys world (.cleanupEvents appserviceId userId pushKey)
      (world.cleanupEvents appserviceId userId pushKey) := by
  have quiet : ∀ txn, ¬ world.Answers txn
      (.cleanupEvents appserviceId userId pushKey) := by
    intro txn answers
    cases answers
  unfold SenderWorld.cleanupEvents
  split
  · exact .of_quiet quiet (fun key has => .inl (hasKey_erasePrefix has).1)
      (fun key has => (hasKey_erasePrefix has).1) (fun txn => id)
  · exact .of_quiet quiet (fun key has => .inl (hasKey_erasePrefix has).1)
      (fun key has => (hasKey_erasePrefix has).1) (fun txn => id)
  · exact .of_quiet quiet (fun key => .inl) (fun key => id) (fun txn => id)

theorem StepKeys.step (loop : LoopInv world) (action : SenderAction)
    (noRestart : isRestart action = false)
    (hasRow : world.hasRow action = true) :
    StepKeys world action (world.step action).1 := by
  have unchanged : ∀ {action}, (∀ txn, ¬ world.Answers txn action) →
      StepKeys world action world := fun quiet =>
    .of_quiet quiet (fun key => .inl) (fun key => id) (fun txn => id)
  cases action with
  | sendPdu id dests | sendEdu buf dests =>
      exact .sent (fun txn answers => by cases answers) rfl
  | flushServers servers =>
      obtain ⟨tables, futures, _⟩ := dispatch_same (servers.map
        (fun server => ⟨.federation server, .flush, []⟩)) world
      refine .of_quiet (fun txn answers => by cases answers)
        (fun key has => .inl ?_) (fun key has => ?_) (fun txn member => ?_)
      · exact tables ▸ has
      · exact tables ▸ has
      · exact futures ▸ member
  | cleanupEvents appserviceId userId pushKey =>
      exact .cleaned appserviceId userId pushKey
  | handleRequest index edus =>
      rcases world.step_handleRequest index edus with same | present
      · rw [same]
        exact unchanged (fun txn answers => by cases answers)
      · obtain ⟨msg, going, found, result⟩ := present
        rw [result]
        exact .requested edus found hasRow
          (SenderWorld.handleRequest_cases _ msg edus)
  | handleResponse index success =>
      simp only [SenderWorld.step]
      split
      next txn going found => exact .responded loop found success
      next absent =>
        refine unchanged (fun txn answers => ?_)
        cases answers with
        | responded _ going found => exact absent txn going found
  | wait duration | stop =>
      refine .of_quiet (fun txn answers => ?_) (fun key => .inl)
        (fun key => id) (fun txn => id)
      cases answers
  | finishResponse index success =>
      simp only [SenderWorld.step]
      split
      next txn stopped found => exact .finished loop found success
      next absent =>
        refine unchanged (fun txn answers => ?_)
        cases answers with
        | finished _ stopped found => exact absent txn stopped found
  | restart config => cases noRestart

theorem KeyInv.of_fewer (inv : KeyInv world)
    (waiting : ∀ msg ∈ after.waiting, msg.queueId ≠ [] → msg ∈ world.waiting)
    (futures : ∀ txn ∈ after.futures, txn ∈ world.futures ∨
      ∀ item ∈ txn.events, item.1 ≠ [] → txn.dest.getPrefix <+: item.1) :
    KeyInv after where
  waiting msg member notEmpty :=
    inv.waiting msg (waiting msg member notEmpty) notEmpty
  futures txn member := (futures txn member).elim (inv.futures txn) id

theorem KeyInv.requested (inv : KeyInv world)
    (found : world.waiting[index]? = some msg)
    (requested : SenderWorld.Requested
      { world with waiting := world.waiting.eraseIdx index } msg after) :
    KeyInv after := by
  have erased : ∀ other ∈ world.waiting.eraseIdx index,
      other.queueId ≠ [] → other ∈ world.waiting :=
    fun other member _ => mem_of_mem_eraseIdx member
  cases requested with
  | refused => exact inv.of_fewer erased (fun txn => .inl)
  | retried tries time failed =>
      refine inv.of_fewer erased (fun txn member => ?_)
      refine (mem_append.mp member).imp_right (fun last => ?_)
      rw [mem_singleton.mp last]
      exact fun item inside _ => (hasKey_of_mem_rowsFor inside).2
  | nothingLeft tries time failed =>
      exact inv.of_fewer erased (fun txn => .inl)
  | started educount edus noKeys unknown =>
      refine inv.of_fewer erased (fun txn member => ?_)
      refine (mem_append.mp member).imp_right (fun last => ?_)
      rw [mem_singleton.mp last]
      intro item inside notEmpty
      rcases mem_cons.mp inside with isMsg | isEdu
      · rw [isMsg] at notEmpty ⊢
        exact inv.waiting msg (mem_of_getElem? found) notEmpty
      · exact absurd (noKeys item isEdu) notEmpty

theorem KeyInv.responded (inv : KeyInv world) (index : Nat)
    (txn : Transaction) (success : Bool) :
    KeyInv ((world.take index).handleResponse txn success).1 := by
  have fewer : ∀ other ∈ (world.take index).futures, other ∈ world.futures :=
    fun other => mem_of_mem_eraseIdx
  unfold SenderWorld.handleResponse
  cases success with
  | true =>
      simp only [if_true]
      have answered := (world.take index).handleResponseOk_cases txn.dest
      generalize (world.take index).handleResponseOk txn.dest = after at answered
      cases answered with
      | drained newEvents notEmpty queued =>
          refine inv.of_fewer (fun msg member _ => member)
            (fun other member => ?_)
          refine (mem_append.mp member).imp (fewer other) (fun last => ?_)
          rw [mem_singleton.mp last]
          exact fun item inside _ =>
            (hasKey_of_mem_drained queued item inside).2
      | done =>
          exact inv.of_fewer (fun msg member _ => member)
            (fun other member => .inl (fewer other member))
  | false =>
      simp only [Bool.false_eq_true, if_false]
      split
      next after answered =>
        obtain ⟨_, waiting, futures⟩ := handleResponseErr_same answered
        exact inv.of_fewer (fun msg member _ => waiting ▸ member)
          (fun other member => .inl (fewer other (futures ▸ member)))
      · exact inv.of_fewer (fun msg member _ => member)
          (fun other member => .inl (fewer other member))

theorem KeyInv.step (inv : KeyInv world) (action : SenderAction)
    (noRestart : isRestart action = false) :
    KeyInv (world.step action).1 := by
  have sent : ∀ event dests,
      KeyInv (SenderWorld.sendTo event dests world) := by
    intro event dests
    have sends := sendTo_sent event dests world
    refine ⟨fun msg member notEmpty => ?_, fun txn member => ?_⟩
    · rcases sends.waiting msg member with old | new
      · exact inv.waiting msg old notEmpty
      · obtain ⟨request, inside, rfl⟩ := new
        exact sends.starts request inside
    · rw [sends.futures] at member
      exact inv.futures txn member
  cases action with
  | sendPdu id dests => exact sent (.pdu id) dests
  | sendEdu buf dests => exact sent (.edu buf) dests
  | flushServers servers =>
      obtain ⟨_, futures, waiting⟩ := dispatch_same (servers.map
        (fun server => ⟨.federation server, .flush, []⟩)) world
      refine inv.of_fewer (fun msg member notEmpty => ?_)
        (fun txn member => .inl (futures ▸ member))
      refine (waiting msg member).resolve_right (fun new => ?_)
      obtain ⟨server, _, rfl⟩ := mem_map.mp new
      exact notEmpty rfl
  | cleanupEvents appserviceId userId pushKey =>
      simp only [SenderWorld.step]
      unfold SenderWorld.cleanupEvents
      split
      · exact ⟨inv.waiting, inv.futures⟩
      · exact ⟨inv.waiting, inv.futures⟩
      · exact inv
  | handleRequest index edus =>
      rcases world.step_handleRequest index edus with same | present
      · rw [same]
        exact inv
      · obtain ⟨msg, going, found, result⟩ := present
        rw [result]
        exact inv.requested found (SenderWorld.handleRequest_cases _ msg edus)
  | handleResponse index success =>
      rcases world.step_handleResponse index success with same | present
      · rw [same]
        exact inv
      · obtain ⟨txn, going, found, result⟩ := present
        rw [result]
        exact inv.responded index txn success
  | wait duration | stop => exact ⟨inv.waiting, inv.futures⟩
  | finishResponse index success =>
      rcases world.step_finishResponse index success with same | present
      · rw [same]
        exact inv
      · obtain ⟨txn, stopped, found, result⟩ := present
        rw [result]
        unfold SenderWorld.finishResponse
        split
        · exact inv.of_fewer (fun msg member _ => member)
            (fun other member => .inl (mem_of_mem_eraseIdx member))
        · exact inv.of_fewer (fun msg member _ => member)
            (fun other member => .inl (mem_of_mem_eraseIdx member))
  | restart config => cases noRestart

end

structure RepeatInv (history : SenderHistory) (world : SenderWorld) : Prop where
  loop : LoopInv world
  keys : KeyInv world
  held : ∀ key, key ≠ [] → world.tables.servernameeventData.hasKey key ∨
      world.tables.servercurrenteventData.hasKey key →
    ∀ dest, ¬ Delivered history dest key
  flying : NothingRepeated history world

namespace RepeatInv

variable {history : SenderHistory} {world : SenderWorld}
  {action : SenderAction}

theorem Answers.quiet {txn : Transaction}
    (answers : world.Answers txn action) : world.queuedBy action = [] := by
  cases answers with
  | responded | finished => rfl

theorem Answers.mem {txn : Transaction} (answers : world.Answers txn action) :
    txn ∈ world.futures := by
  cases answers with
  | responded index going found
  | finished index stopped found => exact mem_of_getElem? found

theorem held_step (inv : RepeatInv history world)
    (keys : StepKeys world action (world.step action).1) {key : Key}
    (notEmpty : key ≠ [])
    (has : (world.step action).1.tables.servernameeventData.hasKey key ∨
      (world.step action).1.tables.servercurrenteventData.hasKey key)
    (dest : Destination) :
    ¬ Delivered (history ++ [entryOf SenderWorld.step world action]) dest
      key := by
  intro delivered
  rcases delivered_snoc delivered with old | new
  · obtain ⟨before, unqueued⟩ := old
    refine inv.held key notEmpty ?_ dest before
    rcases has with queued | active
    · exact .inl ((keys.queued key queued).resolve_right unqueued)
    · exact (keys.active key active).imp_right And.left
  · obtain ⟨txn, answers, _, inside, free⟩ := new
    obtain ⟨item, listed, rfl⟩ := mem_map.mp inside
    have starts := inv.keys.futures txn (Answers.mem answers) item listed
      notEmpty
    rcases has with queued | active
    · refine (keys.queued _ queued).elim free (fun listed => ?_)
      rw [Answers.quiet answers] at listed
      cases listed
    · exact (keys.active _ active).elim free
        (fun both => both.2 txn answers starts)

theorem flying_step (inv : RepeatInv history world)
    (keys : StepKeys world action (world.step action).1) :
    NothingRepeated (history ++ [entryOf SenderWorld.step world action])
      (world.step action).1 := by
  intro txn member item inside notEmpty delivered
  rcases keys.futures txn member with old | fromRows
  · rcases delivered_snoc delivered with before | new
    · exact inv.flying txn old.1 item inside notEmpty before.1
    · obtain ⟨answered, answers, isDest, _, _⟩ := new
      exact old.2 answered answers isDest
  · have rows := fromRows item inside notEmpty
    rcases delivered_snoc delivered with before | new
    · exact inv.held item.1 notEmpty (rows.imp_right And.left) _ before.1
    · obtain ⟨answered, answers, _, _, free⟩ := new
      exact rows.elim free (fun both => both.2 answered answers)

theorem step (inv : RepeatInv history world)
    (noRestart : isRestart action = false)
    (hasRow : world.hasRow action = true) :
    RepeatInv (history ++ [entryOf SenderWorld.step world action])
      (world.step action).1 := by
  have keys := StepKeys.step inv.loop action noRestart hasRow
  exact ⟨(inv.loop.step action).1, inv.keys.step action noRestart,
    fun key notEmpty has => inv.held_step keys notEmpty has,
    inv.flying_step keys⟩

end RepeatInv

theorem delivered_nil (dest : Destination) (key : Key) :
    ¬ Delivered [] dest key := by
  rintro ⟨earlier, entry, later, txn, split, _⟩
  simp at split

def FromRows (txns : Destination → List QueueItem) : Prop :=
  ∀ dest, ∀ item ∈ txns dest, dest.getPrefix <+: item.1

theorem fromRows_add (config : SenderConfig)
    (rows : List (QueueItem × Destination)) (burst : SenderWorld.Netburst)
    (starts : ∀ row ∈ rows, row.2.getPrefix <+: row.1.1)
    (from_ : FromRows burst.txns) :
    FromRows (rows.foldl (add config) burst).txns := by
  induction rows generalizing burst with
  | nil => exact from_
  | cons row rest ih =>
      refine ih _ (fun other member =>
        starts other (mem_cons_of_mem _ member)) ?_
      unfold add
      simp only
      split
      · exact from_
      · intro dest item inside
        simp only [Function.update_apply] at inside
        split at inside
        next same =>
          subst same
          exact forall_mem_snoc (from_ _) (starts row mem_cons_self) item inside
        · exact from_ dest item inside

theorem boot_keyInv (config : SenderConfig) (tables : Tables) (now : Nat) :
    KeyInv (.boot config tables now) := by
  have starts : ∀ row ∈ tables.activeRequests, row.2.getPrefix <+: row.1.1 := by
    intro row member
    obtain ⟨raw, _, read⟩ := mem_filterMap.mp member
    obtain ⟨⟨dest, event⟩, parsed, rfl⟩ := Option.map_eq_some_iff.mp read
    exact prefix_of_parse parsed
  have from_ := fromRows_add config tables.activeRequests
    ⟨tables, fun _ => []⟩ starts (fun dest item inside => by cases inside)
  unfold SenderWorld.boot SenderWorld.startupNetburst
  simp only
  generalize tables.activeRequests.foldl (add config)
    ⟨tables, fun _ => []⟩ = burst at from_
  obtain ⟨_, waiting, futures⟩ := burstAll_same burst.txns
    (tables.activeRequests.map Prod.snd).dedup {
      config
      tables := burst.tables
      waiting := []
      statuses := fun _ => none
      futures := []
      now
      stopping := false }
  refine ⟨fun msg member => ?_, fun txn member item inside _ => ?_⟩
  · rw [waiting] at member
    cases member
  · rw [(futures txn member).resolve_left not_mem_nil] at inside
    exact from_ txn.dest item inside

theorem nothingRepeated_of_hasRow {config : SenderConfig} {tables : Tables}
    {now : Nat} {history : SenderHistory} {world : SenderWorld}
    (reaches : Reaches SenderWorld.step (.boot config tables now) history world)
    (orderly : ∀ entry ∈ history, isRestart entry.input = false ∧
      entry.before.hasRow entry.input = true) :
    NothingRepeated history world := by
  have inv : RepeatInv history world := Reaches.invariant RepeatInv
      ⟨boot_loopInv config tables now, boot_keyInv config tables now,
        fun key _ _ dest => delivered_nil dest key,
        fun txn _ item _ _ => delivered_nil txn.dest item.1⟩
      (fun history world action inv orderly => inv.step orderly.1 orderly.2)
      reaches (Always.of_forall_mem orderly)
  exact inv.flying

namespace OneServer

def answeredOnce : List SenderAction :=
  [.sendPdu (pduId 1) [dest], .handleRequest 0 none, .handleResponse 0 true,
    .sendPdu (pduId 2) [dest], .handleRequest 0 none]

theorem answeredOnce_nothingRepeated :
    (run SenderWorld.step (start true) answeredOnce).2.inFlight = [dest] ∧
      NothingRepeated (run SenderWorld.step (start true) answeredOnce).1
        (run SenderWorld.step (start true) answeredOnce).2 := by
  refine ⟨by decide +kernel,
    nothingRepeated_of_hasRow (reaches_run _ _ _) ?_⟩
  decide +kernel

def overtaken : List SenderAction :=
  [.sendPdu (pduId 1) [dest], .handleRequest 0 none,
    .sendPdu (pduId 2) [dest], .handleResponse 0 true,
    .handleResponse 0 true, .handleRequest 0 none]

/-- The second PDU is sent by the drained table and again by its message. -/
theorem overtaken_repeated : (run SenderWorld.step (start true) overtaken).1.all
        (fun entry => !isRestart entry.input) = true ∧
      ¬ ∀ config tables now world history,
        Reaches SenderWorld.step (.boot config tables now) history world →
        history.all (fun entry => !isRestart entry.input) = true →
        NothingRepeated history world := by
  have noRestart : (run SenderWorld.step (start true) overtaken).1.all
      (fun entry => !isRestart entry.input) = true := by decide +kernel
  refine ⟨noRestart, fun all => ?_⟩
  let history := (run SenderWorld.step (start true) overtaken).1
  let item : QueueItem := (dest.getPrefix ++ (pduId 2).bytes, .pdu (pduId 2))
  refine all _ _ _ _ _ (reaches_run _ _ _) noRestart ⟨dest, [item]⟩
    mem_cons_self item mem_cons_self (by decide +kernel) ?_
  refine ⟨history.take 4, history[4], history.drop 5, ⟨dest, [item]⟩, rfl,
    .responded 0 rfl rfl, rfl, mem_cons_self, ?_, ?_⟩
  · decide +kernel
  · decide +kernel

end OneServer

end ArcanaServer.Sending
