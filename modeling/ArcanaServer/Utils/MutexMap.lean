import ArcanaServer.Library.EntryTable
import ArcanaServer.Library.Trace

namespace ArcanaServer.Utils

open Library EntryTable

/-! A map of mutexes.  A call that asks for the lock of a key clones the shared
mutex of the key, and puts one there if there is none.  The guard that the call
gets looks at the number of clones when it is dropped and deletes the entry if
there is no clone but the map's and its own. -/

abbrev TaskId := Nat
abbrev Address := Nat

/-- How far a clone is: `lock` waits for the mutex or `try_lock` is about to
try it; a guard has it; the drop of the guard is about to delete the entry, is
about to unlock the mutex; the clone is all that is left. -/
inductive Stage where
  | waiting
  | trying
  | holding
  | checked
  | leaving
  | released
  deriving DecidableEq, Repr

def Stage.hasMutex : Stage → Bool
  | .holding | .checked | .leaving => true
  | .waiting | .trying | .released => false

def Stage.maintains : Stage → Bool
  | .waiting | .trying | .holding | .checked => true
  | .leaving | .released => false

structure Clone (Key : Type) where
  key : Key
  mutex : Address
  stage : Stage
  deriving DecidableEq, Repr

/-- `unused` is the address of the next mutex. -/
structure MutexMap (Key : Type) where
  map : EntryTable Key Address
  clones : EntryTable TaskId (Clone Key)
  unused : Address

inductive LockAction (Key : Type) where
  | lock (task : TaskId) (key : Key)
  | tryLock (task : TaskId) (key : Key)
  | tryTryLock (task : TaskId) (key : Key) (mapIsLocked : Bool)
  | proceed (task : TaskId)
  | cancel (task : TaskId)
  deriving DecidableEq, Repr

inductive LockOutcome where
  | guard
  | refused (message : String)
  | nothing
  deriving DecidableEq, Repr

namespace MutexMap

variable {Key : Type} [DecidableEq Key]

def new : MutexMap Key where
  map := ∅
  clones := ∅
  unused := 0

variable (locks : MutexMap Key)

def isEmpty : Bool := locks.map.entries.isEmpty

def strongCount (mutex : Address) : Nat :=
  locks.map.countWith (fun entry => entry = mutex) +
    locks.clones.countWith (fun clone => clone.mutex = mutex)

def isLocked (mutex : Address) : Bool :=
  locks.clones.entries.any
    (fun entry => entry.2.mutex = mutex && entry.2.stage.hasMutex)

def entryOrDefault (key : Key) : Address × MutexMap Key :=
  match locks.map.lookup key with
  | some mutex => (mutex, locks)
  | none =>
      (locks.unused, { locks with
        map := locks.map.insert key locks.unused
        unused := locks.unused + 1 })

def setStage (task : TaskId) (clone : Clone Key) (stage : Stage) :
    MutexMap Key :=
  { locks with clones := locks.clones.insert task { clone with stage } }

def begin (task : TaskId) (key : Key) (stage : Stage) : MutexMap Key :=
  match locks.clones.lookup task with
  | some _ => locks
  | none =>
      let entry := locks.entryOrDefault key
      entry.2.setStage task ⟨key, entry.1, stage⟩ stage

def retain (mutex : Address) : MutexMap Key :=
  { locks with
    map := locks.map.retain (fun _ entry =>
      entry ≠ mutex || 2 < locks.strongCount entry) }

def proceed (task : TaskId) (clone : Clone Key) : MutexMap Key × LockOutcome :=
  match clone.stage with
  | .waiting =>
      if locks.isLocked clone.mutex then (locks, .nothing)
      else (locks.setStage task clone .holding, .guard)
  | .trying =>
      if locks.isLocked clone.mutex then
        (locks.setStage task clone .released, .refused "would yield")
      else (locks.setStage task clone .holding, .guard)
  | .holding =>
      if locks.strongCount clone.mutex ≤ 2 then
        (locks.setStage task clone .checked, .nothing)
      else (locks.setStage task clone .leaving, .nothing)
  | .checked =>
      ((locks.retain clone.mutex).setStage task clone .leaving, .nothing)
  | .leaving => (locks.setStage task clone .released, .nothing)
  | .released =>
      ({ locks with clones := locks.clones.erase task }, .nothing)

def step : LockAction Key → MutexMap Key × LockOutcome
  | .lock task key => (locks.begin task key .waiting, .nothing)
  | .tryLock task key => (locks.begin task key .trying, .nothing)
  | .tryTryLock task key mapIsLocked =>
      if mapIsLocked then (locks, .refused "would block")
      else (locks.begin task key .trying, .nothing)
  | .proceed task =>
      match locks.clones.lookup task with
      | none => (locks, .nothing)
      | some clone => locks.proceed task clone
  | .cancel task =>
      match locks.clones.lookup task with
      | none => (locks, .nothing)
      | some clone =>
          if clone.stage = .waiting then
            (locks.setStage task clone .released, .nothing)
          else (locks, .nothing)

/-- The guard of a key excludes others, the entry of a mutex that a task holds
or waits for stays, and no entry stays when all clones are gone. -/
structure Sound : Prop where
  oneGuard : ∀ one two left right,
    locks.clones.lookup one = some left → left.stage = .holding →
    locks.clones.lookup two = some right → right.stage = .holding →
    left.key = right.key → one = two
  keepsEntry : ∀ action key mutex, locks.map.lookup key = some mutex →
    (locks.step action).1.map.lookup key ≠ some mutex →
    ∃ task, action = .proceed task ∧ ∀ other clone, other ≠ task →
      locks.clones.lookup other = some clone → clone.mutex ≠ mutex
  cleansUp : locks.clones.entries = [] → locks.isEmpty

/-- Beside the task, another one has a clone of the mutex and will look at the
number of clones when it drops its guard. -/
def Relieved (task : TaskId) (mutex : Address) : Prop :=
  ∃ other clone, other ≠ task ∧ locks.clones.lookup other = some clone ∧
    clone.mutex = mutex ∧ clone.stage.maintains = true

/-- The `try_lock` of the clone fails, or its guard counts other clones. -/
def LeavesEntry (clone : Clone Key) : Prop :=
  clone.stage = .trying ∧ locks.isLocked clone.mutex = true ∨
    (clone.stage = .holding ∨ clone.stage = .checked) ∧
      2 < locks.strongCount clone.mutex

/-- A task that leaves the entry where it is, also because its `lock` is
cancelled, is relieved by another one. -/
def Orderly : LockAction Key → Prop
  | .proceed task => ∀ clone ∈ locks.clones.lookup task,
      locks.LeavesEntry clone → locks.Relieved task clone.mutex
  | .cancel task => ∀ clone ∈ locks.clones.lookup task,
      clone.stage = .waiting → locks.Relieved task clone.mutex
  | .lock _ _ | .tryLock _ _ | .tryTryLock _ _ _ => True

instance (locks : MutexMap Key) (task : TaskId) (mutex : Address) :
    Decidable (locks.Relieved task mutex) :=
  decidable_of_iff (∃ entry ∈ locks.clones.entries, entry.1 ≠ task ∧
      entry.2.mutex = mutex ∧ entry.2.stage.maintains = true) <| by
    constructor
    · rintro ⟨entry, member, rest⟩
      exact ⟨entry.1, entry.2, rest.1, EntryTable.lookup_eq_some.mpr member,
        rest.2⟩
    · rintro ⟨other, clone, differs, found, rest⟩
      exact ⟨⟨other, clone⟩, EntryTable.lookup_eq_some.mp found, differs, rest⟩

instance (locks : MutexMap Key) (clone : Clone Key) :
    Decidable (locks.LeavesEntry clone) :=
  inferInstanceAs (Decidable (_ ∧ _ ∨ _ ∧ _))

instance (locks : MutexMap Key) : DecidablePred locks.Orderly
  | .proceed task | .cancel task =>
      inferInstanceAs (Decidable (∀ clone ∈ locks.clones.lookup task, _ → _))
  | .lock _ _ | .tryLock _ _ | .tryTryLock _ _ _ => isTrue trivial

/-- A task that still looks at the number of clones has the mutex that the map
has under its key, and no mutex is locked twice. -/
structure Inv : Prop where
  entries : ∀ key mutex, locks.map.lookup key = some mutex →
    mutex < locks.unused
  clones : ∀ task clone, locks.clones.lookup task = some clone →
    clone.mutex < locks.unused
  apart : ∀ one two mutex, locks.map.lookup one = some mutex →
    locks.map.lookup two = some mutex → one = two
  listed : ∀ task clone, locks.clones.lookup task = some clone →
    clone.stage.maintains = true →
    locks.map.lookup clone.key = some clone.mutex
  exclusive : ∀ one two left right,
    locks.clones.lookup one = some left → left.stage.hasMutex = true →
    locks.clones.lookup two = some right → right.stage.hasMutex = true →
    left.mutex = right.mutex → one = two

/-- Each entry of the map has a clone that will look at the number of
clones. -/
def Maintained : Prop :=
  ∀ key mutex, locks.map.lookup key = some mutex →
    ∃ task clone, locks.clones.lookup task = some clone ∧
      clone.mutex = mutex ∧ clone.stage.maintains = true

section

variable {locks : MutexMap Key} {task : TaskId} {clone : Clone Key}

variable {mutex : Address}

omit [DecidableEq Key] in
theorem isLocked_eq_true : locks.isLocked mutex = true ↔ ∃ task clone,
      locks.clones.lookup task = some clone ∧ clone.mutex = mutex ∧
        clone.stage.hasMutex = true := by
  unfold isLocked
  rw [List.any_eq_true]
  constructor
  · rintro ⟨⟨task, clone⟩, member, both⟩
    obtain ⟨same, has⟩ := by simpa using both
    exact ⟨task, clone, lookup_eq_some.mpr member, same, has⟩
  · rintro ⟨task, clone, found, same, has⟩
    exact ⟨⟨task, clone⟩, lookup_eq_some.mp found, by simp [same, has]⟩

/-- A guard that counts two clones has the only one beside the map's. -/
theorem alone_of_strongCount_le {other : TaskId} {rival : Clone Key}
    {key : Key} (few : locks.strongCount clone.mutex ≤ 2)
    (entry : locks.map.lookup key = some clone.mutex)
    (found : locks.clones.lookup task = some clone)
    (also : locks.clones.lookup other = some rival)
    (differs : other ≠ task) : rival.mutex ≠ clone.mutex := by
  intro same
  have one : 1 ≤ locks.map.countWith (fun entry => entry = clone.mutex) :=
    one_le_countWith entry (by simp)
  have two : 2 ≤ locks.clones.countWith
      (fun inner => inner.mutex = clone.mutex) :=
    two_le_countWith also (by simpa using same) found (by simp)
      differs
  unfold strongCount at few
  omega

variable {stage : Stage}

omit [DecidableEq Key] in
theorem lookup_setStage {other : TaskId} :
    (locks.setStage task clone stage).clones.lookup other =
      if other = task then some { clone with stage }
      else locks.clones.lookup other :=
  lookup_insert

theorem Inv.setStage (inv : locks.Inv)
    (found : locks.clones.lookup task = some clone)
    (maintains : stage.maintains = true → clone.stage.maintains = true)
    (mutex : stage.hasMutex = true → clone.stage.hasMutex = true ∨
      locks.isLocked clone.mutex = false) :
    (locks.setStage task clone stage).Inv := by
  have free : ∀ other rival, locks.clones.lookup other = some rival →
      other ≠ task → rival.stage.hasMutex = true →
      stage.hasMutex = true → rival.mutex ≠ clone.mutex := by
    intro other rival isRival differs has hasStage same
    rcases mutex hasStage with had | unlocked
    · exact differs (inv.exclusive _ _ _ _ isRival has found had same)
    · have locked := isLocked_eq_true.mpr ⟨other, rival, isRival, same, has⟩
      rw [unlocked] at locked
      cases locked
  refine ⟨inv.entries, ?_, inv.apart, ?_, ?_⟩
  · intro other rival isRival
    rw [lookup_setStage] at isRival
    split at isRival
    · cases isRival
      exact inv.clones task clone found
    · exact inv.clones other rival isRival
  · intro other rival isRival looks
    rw [lookup_setStage] at isRival
    split at isRival
    · cases isRival
      exact inv.listed task clone found (maintains looks)
    · exact inv.listed other rival isRival looks
  · intro one two left right isLeft hasLeft isRight hasRight same
    rw [lookup_setStage] at isLeft isRight
    split at isLeft
    next isOne =>
      split at isRight
      next isTwo => exact isOne.trans isTwo.symm
      next differs =>
        cases isLeft
        exact absurd same.symm (free two right isRight differs hasRight hasLeft)
    next differs =>
      split at isRight
      · cases isRight
        exact absurd same (free one left isLeft differs hasLeft hasRight)
      · exact inv.exclusive _ _ _ _ isLeft hasLeft isRight hasRight same

theorem Inv.entryOrDefault (inv : locks.Inv) (key : Key) :
    (locks.entryOrDefault key).2.Inv ∧
      (locks.entryOrDefault key).2.map.lookup key =
        some (locks.entryOrDefault key).1 := by
  unfold MutexMap.entryOrDefault
  split
  next mutex found => exact ⟨inv, found⟩
  next missing =>
    refine ⟨⟨?_, ?_, ?_, ?_, inv.exclusive⟩, AList.lookup_insert _⟩
    · intro other mutex isEntry
      rw [lookup_insert] at isEntry
      split at isEntry
      · cases isEntry
        exact Nat.lt_succ_self _
      · exact Nat.lt_succ_of_lt (inv.entries other mutex isEntry)
    · intro task clone found
      exact Nat.lt_succ_of_lt (inv.clones task clone found)
    · intro one two mutex isOne isTwo
      rw [lookup_insert] at isOne isTwo
      split at isOne
      next sameOne =>
        split at isTwo
        next sameTwo => exact sameOne.trans sameTwo.symm
        · cases isOne
          exact absurd (inv.entries two _ isTwo) (Nat.lt_irrefl _)
      · split at isTwo
        · cases isTwo
          exact absurd (inv.entries one _ isOne) (Nat.lt_irrefl _)
        · exact inv.apart one two mutex isOne isTwo
    · intro task clone found looks
      have listed := inv.listed task clone found looks
      rw [lookup_insert]
      split
      next same =>
        rw [same, missing] at listed
        cases listed
      · exact listed

theorem Inv.begin (inv : locks.Inv) (key : Key)
    (without : stage.hasMutex = false) : (locks.begin task key stage).Inv := by
  unfold MutexMap.begin
  split
  · exact inv
  · obtain ⟨next, entry⟩ := inv.entryOrDefault key
    simp only
    generalize locks.entryOrDefault key = outcome at next entry
    obtain ⟨mutex, after⟩ := outcome
    refine ⟨next.entries, ?_, next.apart, ?_, ?_⟩
    · intro other rival isRival
      rw [lookup_setStage] at isRival
      split at isRival
      · cases isRival
        exact next.entries key mutex entry
      · exact next.clones other rival isRival
    · intro other rival isRival looks
      rw [lookup_setStage] at isRival
      split at isRival
      · cases isRival
        exact entry
      · exact next.listed other rival isRival looks
    · intro one two left right isLeft hasLeft isRight hasRight same
      rw [lookup_setStage] at isLeft isRight
      split at isLeft
      · cases isLeft
        rw [without] at hasLeft
        cases hasLeft
      · split at isRight
        · cases isRight
          rw [without] at hasRight
          cases hasRight
        · exact next.exclusive _ _ _ _ isLeft hasLeft isRight hasRight same

theorem lookup_retain {found : Address} {key : Key} :
    (locks.retain mutex).map.lookup key = some found ↔
      locks.map.lookup key = some found ∧
        (found = mutex → 2 < locks.strongCount found) := by
  rw [MutexMap.retain, EntryTable.lookup_retain]
  refine and_congr_right (fun _ => ?_)
  simp only [ne_eq, decide_not, Bool.or_eq_true, Bool.not_eq_eq_eq_not,
    Bool.not_true, decide_eq_false_iff_not, decide_eq_true_eq]
  exact ⟨fun either same => either.resolve_left (not_not_intro same),
    fun counts =>
      or_iff_not_imp_left.mpr (fun same => counts (not_not.mp same))⟩

/-- The entry that the drop of a guard deletes is nobody else's. -/
theorem Inv.retain (inv : locks.Inv)
    (found : locks.clones.lookup task = some clone)
    (isChecked : clone.stage = .checked) :
    ((locks.retain clone.mutex).setStage task clone .leaving).Inv := by
  have entry := inv.listed task clone found (by rw [isChecked]; rfl)
  have moved : (locks.setStage task clone .leaving).Inv :=
    inv.setStage found (fun looks => by cases looks)
      (fun _ => .inl (by rw [isChecked]; rfl))
  refine ⟨?_, moved.clones, ?_, ?_, moved.exclusive⟩
  · intro key mutex isEntry
    exact inv.entries key mutex (lookup_retain.mp isEntry).1
  · intro one two mutex isOne isTwo
    exact inv.apart one two mutex (lookup_retain.mp isOne).1
      (lookup_retain.mp isTwo).1
  · intro other rival isRival looks
    have listed := moved.listed other rival isRival looks
    refine lookup_retain.mpr ⟨listed, fun same => ?_⟩
    rw [lookup_setStage] at isRival
    split at isRival
    · cases isRival
      cases looks
    next differs =>
      by_contra few
      rw [same, not_lt] at few
      exact alone_of_strongCount_le few entry found isRival differs same

theorem Inv.erase (inv : locks.Inv) :
    Inv { locks with clones := locks.clones.erase task } := by
  have kept : ∀ other rival,
      (locks.clones.erase task).lookup other = some rival →
      locks.clones.lookup other = some rival := by
    intro other rival isRival
    rw [lookup_erase] at isRival
    split at isRival
    · cases isRival
    · exact isRival
  exact ⟨inv.entries, fun _ _ isRival => inv.clones _ _ (kept _ _ isRival),
    inv.apart, fun _ _ isRival => inv.listed _ _ (kept _ _ isRival),
    fun _ _ _ _ isLeft hasLeft isRight => inv.exclusive _ _ _ _
      (kept _ _ isLeft) hasLeft (kept _ _ isRight)⟩

theorem Inv.proceed (inv : locks.Inv)
    (found : locks.clones.lookup task = some clone) :
    (locks.proceed task clone).1.Inv := by
  unfold MutexMap.proceed
  split
  next isWaiting =>
    split
    · exact inv
    next unlocked =>
      exact inv.setStage found (fun _ => by rw [isWaiting]; rfl)
        (fun _ => .inr (by simpa using unlocked))
  next isTrying =>
    split
    · exact inv.setStage found (fun looks => by cases looks)
        (fun has => by cases has)
    next unlocked =>
      exact inv.setStage found (fun _ => by rw [isTrying]; rfl)
        (fun _ => .inr (by simpa using unlocked))
  next isHolding =>
    split
    · exact inv.setStage found (fun _ => by rw [isHolding]; rfl)
        (fun _ => .inl (by rw [isHolding]; rfl))
    · exact inv.setStage found (fun looks => by cases looks)
        (fun _ => .inl (by rw [isHolding]; rfl))
  next isChecked => exact inv.retain found isChecked
  · exact inv.setStage found (fun looks => by cases looks)
      (fun has => by cases has)
  · exact inv.erase

theorem Inv.step (inv : locks.Inv) (action : LockAction Key) :
    (locks.step action).1.Inv := by
  unfold MutexMap.step
  split
  · exact inv.begin _ rfl
  · exact inv.begin _ rfl
  · split
    · exact inv
    · exact inv.begin _ rfl
  · split
    · exact inv
    next found => exact inv.proceed found
  · split
    · exact inv
    next found =>
      split
      · exact inv.setStage found (fun looks => by cases looks)
          (fun has => by cases has)
      · exact inv

theorem lookup_begin {key other : Key}
    (entry : locks.map.lookup other = some mutex) :
    (locks.begin task key stage).map.lookup other = some mutex := by
  unfold MutexMap.begin
  split
  · exact entry
  · simp only [MutexMap.entryOrDefault, MutexMap.setStage]
    split
    · exact entry
    next missing =>
      refine (lookup_insert).trans ?_
      split
      next same =>
        rw [same, missing] at entry
        cases entry
      · exact entry

/-- Only the drop of a guard deletes an entry, and it deletes its own if nobody
else has a clone. -/
theorem keepsEntry {action : LockAction Key} {key : Key}
    (entry : locks.map.lookup key = some mutex)
    (deleted : (locks.step action).1.map.lookup key ≠ some mutex) :
    ∃ task, action = .proceed task ∧ ∀ other clone, other ≠ task →
      locks.clones.lookup other = some clone → clone.mutex ≠ mutex := by
  cases action with
  | lock task other
  | tryLock task other => exact absurd (lookup_begin entry) deleted
  | tryTryLock task other mapIsLocked =>
      refine absurd ?_ deleted
      unfold MutexMap.step
      simp only
      split
      · exact entry
      · exact lookup_begin entry
  | cancel task =>
      refine absurd ?_ deleted
      unfold MutexMap.step
      simp only
      split
      · exact entry
      · split
        · exact entry
        · exact entry
  | proceed task =>
      refine ⟨task, rfl, ?_⟩
      unfold MutexMap.step at deleted
      simp only at deleted
      split at deleted
      · exact absurd entry deleted
      next clone found =>
        by_cases isChecked : clone.stage = .checked
        · simp only [MutexMap.proceed, isChecked] at deleted
          have gone := mt lookup_retain.mpr deleted
          have both : mutex = clone.mutex ∧
              locks.strongCount mutex ≤ 2 := by
            simpa [entry] using gone
          obtain ⟨rfl, few⟩ := both
          exact fun other rival differs isRival =>
            alone_of_strongCount_le few entry found isRival differs
        · refine absurd ?_ deleted
          unfold MutexMap.proceed
          split
          · split <;> exact entry
          · split <;> exact entry
          · split <;> exact entry
          next same => exact absurd same isChecked
          · exact entry
          · exact entry

theorem Inv.oneGuard (inv : locks.Inv) {one two : TaskId}
    {left right : Clone Key} (isLeft : locks.clones.lookup one = some left)
    (leftHolds : left.stage = .holding)
    (isRight : locks.clones.lookup two = some right)
    (rightHolds : right.stage = .holding) (same : left.key = right.key) :
    one = two := by
  have leftEntry := inv.listed one left isLeft (by rw [leftHolds]; rfl)
  have rightEntry := inv.listed two right isRight (by rw [rightHolds]; rfl)
  rw [same, rightEntry] at leftEntry
  exact inv.exclusive one two left right isLeft (by rw [leftHolds]; rfl)
    isRight (by rw [rightHolds]; rfl) (Option.some.inj leftEntry).symm

section

variable (maintained : locks.Maintained)
include maintained

theorem Maintained.setStage (found : locks.clones.lookup task = some clone)
    {stage : Stage}
    (relieved : clone.stage.maintains = true → stage.maintains = true ∨
      locks.Relieved task clone.mutex) :
    (locks.setStage task clone stage).Maintained := by
  have elsewhere : ∀ mutex other rival, other ≠ task →
      locks.clones.lookup other = some rival → rival.mutex = mutex →
      rival.stage.maintains = true →
      ∃ other rival,
        (locks.setStage task clone stage).clones.lookup other = some rival ∧
          rival.mutex = mutex ∧ rival.stage.maintains = true := by
    intro mutex other rival differs isRival same looks
    refine ⟨other, rival, ?_, same, looks⟩
    rw [lookup_setStage, if_neg differs]
    exact isRival
  intro key mutex entry
  obtain ⟨other, rival, isRival, same, looks⟩ := maintained key mutex entry
  by_cases isTask : other = task
  · subst isTask
    cases found.symm.trans isRival
    rcases relieved looks with stays | relief
    · refine ⟨other, { clone with stage }, ?_, same, stays⟩
      rw [lookup_setStage, if_pos rfl]
    · obtain ⟨third, heir, differs, isHeir, shared, heirLooks⟩ := relief
      exact elsewhere mutex third heir differs isHeir (shared.trans same)
        heirLooks
  · exact elsewhere mutex other rival isTask isRival same looks

theorem Maintained.begin {key : Key} {stage : Stage}
    (looks : stage.maintains = true) :
    (locks.begin task key stage).Maintained := by
  unfold MutexMap.begin
  split
  · exact maintained
  next absent =>
    have kept : ∀ mutex, (∃ other rival,
          locks.clones.lookup other = some rival ∧ rival.mutex = mutex ∧
            rival.stage.maintains = true) →
        ∀ inserted, ∃ other rival,
          (locks.clones.insert task inserted).lookup other = some rival ∧
            rival.mutex = mutex ∧ rival.stage.maintains = true := by
      rintro mutex ⟨other, rival, isRival, same, rivalLooks⟩ inserted
      refine ⟨other, rival, ?_, same, rivalLooks⟩
      rw [lookup_insert, if_neg, isRival]
      rintro rfl
      rw [absent] at isRival
      cases isRival
    simp only [MutexMap.entryOrDefault, MutexMap.setStage]
    split
    · exact fun other mutex entry =>
        kept mutex (maintained other mutex entry) _
    · intro other mutex entry
      simp only at entry
      rw [lookup_insert] at entry
      split at entry
      · cases entry
        exact ⟨task, _, AList.lookup_insert _, rfl, looks⟩
      · exact kept mutex (maintained other mutex entry) _

theorem Maintained.retain (found : locks.clones.lookup task = some clone)
    (relieved : 2 < locks.strongCount clone.mutex →
      locks.Relieved task clone.mutex) :
    ((locks.retain clone.mutex).setStage task clone .leaving).Maintained := by
  intro key mutex entry
  obtain ⟨listed, many⟩ := lookup_retain.mp entry
  obtain ⟨other, rival, differs, isRival, same, looks⟩ :
      locks.Relieved task mutex := by
    obtain ⟨other, rival, isRival, same, looks⟩ := maintained key mutex listed
    by_cases isTask : other = task
    · subst isTask
      cases found.symm.trans isRival
      rw [← same] at many ⊢
      exact relieved (many rfl)
    · exact ⟨other, rival, isTask, isRival, same, looks⟩
  refine ⟨other, rival, ?_, same, looks⟩
  refine lookup_setStage.trans ?_
  rw [if_neg differs]
  exact isRival

theorem Maintained.erase (found : locks.clones.lookup task = some clone)
    (idle : clone.stage.maintains = false) :
    Maintained { locks with clones := locks.clones.erase task } := by
  intro key mutex entry
  obtain ⟨other, rival, isRival, same, looks⟩ := maintained key mutex entry
  refine ⟨other, rival, ?_, same, looks⟩
  refine lookup_erase.trans ?_
  rw [if_neg, isRival]
  rintro rfl
  cases found.symm.trans isRival
  rw [idle] at looks
  cases looks

theorem Maintained.proceed (found : locks.clones.lookup task = some clone)
    (orderly : locks.Orderly (.proceed task)) :
    (locks.proceed task clone).1.Maintained := by
  have relieved := orderly clone found
  unfold MutexMap.proceed
  split
  · split
    · exact maintained
    · exact maintained.setStage found (fun _ => .inl rfl)
  next isTrying =>
    split
    next locked =>
      exact maintained.setStage found
        (fun _ => .inr (relieved (.inl ⟨isTrying, locked⟩)))
    · exact maintained.setStage found (fun _ => .inl rfl)
  next isHolding =>
    split
    · exact maintained.setStage found (fun _ => .inl rfl)
    next many =>
      exact maintained.setStage found (fun _ => .inr
        (relieved (.inr ⟨.inl isHolding, not_le.mp many⟩)))
  next isChecked =>
    exact maintained.retain found
      (fun many => relieved (.inr ⟨.inr isChecked, many⟩))
  next isLeaving =>
    refine maintained.setStage found (fun looks => ?_)
    rw [isLeaving] at looks
    cases looks
  next isReleased =>
    exact maintained.erase found (by rw [isReleased]; rfl)

theorem Maintained.step {action : LockAction Key}
    (orderly : locks.Orderly action) : (locks.step action).1.Maintained := by
  cases action with
  | lock task key | tryLock task key => exact maintained.begin rfl
  | tryTryLock task key mapIsLocked =>
      unfold MutexMap.step
      simp only
      split
      · exact maintained
      · exact maintained.begin rfl
  | proceed task =>
      unfold MutexMap.step
      simp only
      split
      · exact maintained
      next found => exact maintained.proceed found orderly
  | cancel task =>
      unfold MutexMap.step
      simp only
      split
      · exact maintained
      next clone found =>
        split
        next isWaiting =>
          exact maintained.setStage found
            (fun _ => .inr (orderly clone found isWaiting))
        · exact maintained

end

end

section

variable {history : List (Entry (MutexMap Key) (LockAction Key) LockOutcome)}
  {locks : MutexMap Key}

theorem inv_new : (new : MutexMap Key).Inv where
  entries := fun _ _ found => by cases found
  clones := fun _ _ found => by cases found
  apart := fun _ _ _ found => by cases found
  listed := fun _ _ found => by cases found
  exclusive := fun _ _ _ _ found => by cases found

section

variable (reaches : Reaches step new history locks)
include reaches

theorem inv_of_reaches : locks.Inv := by
  induction reaches with
  | start => exact inv_new
  | next action _ ih => exact ih.step action

/-- What holds of every run: the locks exclude each other and nobody loses an
entry that it holds or waits for. -/
theorem exclusive_of_reaches :
    (∀ one two left right,
      locks.clones.lookup one = some left → left.stage = .holding →
      locks.clones.lookup two = some right → right.stage = .holding →
      left.key = right.key → one = two) ∧
    ∀ action key mutex, locks.map.lookup key = some mutex →
      (locks.step action).1.map.lookup key ≠ some mutex →
      ∃ task, action = .proceed task ∧ ∀ other clone, other ≠ task →
        locks.clones.lookup other = some clone → clone.mutex ≠ mutex := by
  have inv := inv_of_reaches reaches
  exact ⟨fun _ _ _ _ isLeft left isRight right same =>
    inv.oneGuard isLeft left isRight right same,
    fun _ _ _ entry deleted => MutexMap.keepsEntry entry deleted⟩

section

variable
  (orderly : Always (fun _ entry => entry.before.Orderly entry.input) history)
include orderly

theorem maintained_of_orderly : locks.Maintained := by
  refine reaches.invariant (fun _ locks => locks.Maintained) ?_ ?_ orderly
  · intro key mutex found
    cases found
  · exact fun _ _ _ maintained orderly => maintained.step orderly

theorem sound_of_orderly : locks.Sound := by
  obtain ⟨oneGuard, keepsEntry⟩ := exclusive_of_reaches reaches
  refine ⟨oneGuard, keepsEntry, fun none => ?_⟩
  unfold isEmpty
  rw [List.isEmpty_iff]
  by_contra some
  obtain ⟨entry, member⟩ := List.exists_mem_of_ne_nil _ some
  obtain ⟨task, clone, found, _⟩ := maintained_of_orderly reaches orderly
    entry.1 entry.2 (lookup_eq_some.mpr member)
  have listed := lookup_eq_some.mp found
  rw [none] at listed
  cases listed

end

end

end

def handedOver : List (LockAction String) :=
  [.lock 0 "room", .proceed 0, .lock 1 "room", .proceed 0, .proceed 0,
    .proceed 0, .proceed 1, .proceed 1, .proceed 1, .proceed 1, .proceed 1]

theorem handedOver_sound : (run step new handedOver).2.clones.entries = [] ∧
      (run step new handedOver).2.Sound := by
  refine ⟨by decide, sound_of_orderly (reaches_run step new handedOver)
    (Always.of_forall_mem ?_)⟩
  decide

def crossed : List (LockAction String) :=
  [.lock 0 "room", .proceed 0, .tryLock 1 "room", .proceed 0, .proceed 1,
    .proceed 0, .proceed 0, .proceed 1]

theorem crossed_forgotten :
    Reaches step new (run step new crossed).1 (run step new crossed).2 ∧
      ¬ (run step new crossed).2.Sound := by
  refine ⟨reaches_run step new crossed, fun sound => ?_⟩
  exact absurd (sound.cleansUp (by decide)) (by decide)

end MutexMap

end ArcanaServer.Utils
