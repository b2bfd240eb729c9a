import ArcanaServer.AccountData.Updates

namespace ArcanaServer.AccountData

open Library ArcanaServer.Matrix Rooms EntryTable List SortedTable

namespace DataWorld

variable {Place Kind : Type} [LinearOrder Place] [LinearOrder Kind]

section

variable {world : DataWorld Place Kind} {task : TaskId}
  {call : UpdateCall Place Kind}

theorem CallInv.congr {after : DataWorld Place Kind} (inv : world.CallInv call)
    (accepted : ∀ update ∈ world.accepted, update ∈ after.accepted)
    (row : call.progress.hasRow = true →
      (call.update.id, call.update.data) ∈ world.roomuserdataidAccountdata →
      (call.update.id, call.update.data) ∈ after.roomuserdataidAccountdata)
    (pointer : after.pointer call.update = world.pointer call.update) :
    after.CallInv call := by
  refine ⟨accepted _ inv.accepted, fun has => row has (inv.row has), ?_, ?_⟩
  · rw [pointer]
    exact inv.read
  · rw [pointer]
    exact inv.pointed

theorem Inv.call_count (inv : world.Inv)
    (found : world.calls.lookup task = some call) :
    call.update.count ≤ world.counter :=
  inv.counts _ (inv.calls task call found).accepted

variable {progress : Progress Place Kind} {other : TaskId}
  {rival : UpdateCall Place Kind}

theorem lookup_setProgress
    (isRival : (world.setProgress task call progress).calls.lookup other =
      some rival) :
    other = task ∧ rival = { call with progress } ∨
      other ≠ task ∧ world.calls.lookup other = some rival := by
  simp only [setProgress, lookup_insert] at isRival
  split at isRival
  next same => exact .inl ⟨same, (Option.some.inj isRival).symm⟩
  next differs => exact .inr ⟨differs, isRival⟩

theorem lookup_setProgress_of_ne (differs : other ≠ task)
    (isRival : world.calls.lookup other = some rival) :
    (world.setProgress task call progress).calls.lookup other = some rival :=
  (lookup_insert.trans (if_neg differs)).trans isRival

section

variable {progress : Progress Place Kind} {other : TaskId}
  {rival : UpdateCall Place Kind}

theorem before_setProgress (found : world.calls.lookup task = some call)
    (isRival : (world.setProgress task call progress).calls.lookup other =
      some rival) :
    ∃ earlier, world.calls.lookup other = some earlier ∧
      earlier.update = rival.update := by
  rcases lookup_setProgress isRival with ⟨rfl, rfl⟩ | ⟨-, old⟩
  · exact ⟨call, found, rfl⟩
  · exact ⟨rival, old, rfl⟩

theorem openBefore_setProgress (found : world.calls.lookup task = some call)
    (isOpen : call.progress.isOpen = true)
    (isRival : (world.setProgress task call progress).calls.lookup other =
      some rival) (rivalOpen : rival.progress.isOpen = true) :
    ∃ earlier, world.calls.lookup other = some earlier ∧
      earlier.progress.isOpen = true ∧ earlier.update = rival.update := by
  rcases lookup_setProgress isRival with ⟨rfl, rfl⟩ | ⟨-, old⟩
  · exact ⟨call, found, isOpen, rfl⟩
  · exact ⟨rival, old, rivalOpen, rfl⟩

theorem sameBefore_setProgress {held : Progress Place Kind}
    (isRival : (world.setProgress task call progress).calls.lookup other =
      some rival) (holds : rival.progress = held) (differs : progress ≠ held) :
    other ≠ task ∧ world.calls.lookup other = some rival := by
  rcases lookup_setProgress isRival with ⟨-, rfl⟩ | old
  · exact absurd holds differs
  · exact old

theorem Inv.distinct_setProgress (inv : world.Inv)
    (found : world.calls.lookup task = some call) :
    ∀ one two left right,
      (world.setProgress task call progress).calls.lookup one = some left →
      (world.setProgress task call progress).calls.lookup two = some right →
      left.update.count = right.update.count → one = two := by
  intro one two left right isLeft isRight same
  obtain ⟨first, isFirst, sameFirst⟩ := before_setProgress found isLeft
  obtain ⟨second, isSecond, sameSecond⟩ := before_setProgress found isRight
  rw [← sameFirst, ← sameSecond] at same
  exact inv.distinct one two first second isFirst isSecond same

theorem waiting_setProgress (found : world.calls.lookup task = some call)
    (staysOpen : progress.isOpen = true) {update : Update Place Kind}
    (waits : ∃ other rival, world.calls.lookup other = some rival ∧
      rival.progress.isOpen = true ∧ rival.update = update) :
    ∃ other rival, (world.setProgress task call progress).calls.lookup other =
        some rival ∧
      rival.progress.isOpen = true ∧ rival.update = update := by
  obtain ⟨other, rival, isRival, rivalOpen, isUpdate⟩ := waits
  by_cases same : other = task
  · subst same
    cases found.symm.trans isRival
    exact ⟨other, _, AList.lookup_insert _, staysOpen, isUpdate⟩
  · exact ⟨other, rival, lookup_setProgress_of_ne same isRival, rivalOpen,
      isUpdate⟩

theorem Inv.removes_setProgress (inv : world.Inv)
    (found : world.calls.lookup task = some call)
    (isOpen : call.progress.isOpen = true)
    (staysOpen : progress.isOpen = true) :
    ∀ one two left right id,
      (world.setProgress task call progress).calls.lookup one = some left →
      left.progress = .pointed (some id) →
      (world.setProgress task call progress).calls.lookup two = some right →
      right.progress.isOpen = true → right.update.count ≠ id.count := by
  intro one two left right id isLeft removes isRight rightOpen
  obtain ⟨-, oldLeft⟩ := sameBefore_setProgress isLeft removes
    (by rintro rfl; cases staysOpen)
  obtain ⟨earlier, oldRight, wasOpen, same⟩ :=
    openBefore_setProgress found isOpen isRight rightOpen
  rw [← same]
  exact inv.removes one two left earlier id oldLeft removes oldRight wasOpen

theorem Inv.reads_setProgress (inv : world.Inv)
    (reads : ∀ prev, progress ≠ .read prev) :
    ∀ one two left right before after,
      (world.setProgress task call progress).calls.lookup one = some left →
      left.progress = .read before →
      (world.setProgress task call progress).calls.lookup two = some right →
      right.progress = .read after →
      left.update.place = right.update.place →
      left.update.kind = right.update.kind → one = two := by
  intro one two left right before after isLeft leftRead isRight rightRead
  obtain ⟨-, oldLeft⟩ := sameBefore_setProgress isLeft leftRead (reads before)
  obtain ⟨-, oldRight⟩ := sameBefore_setProgress isRight rightRead (reads after)
  exact inv.reads one two left right before after oldLeft leftRead oldRight
    rightRead

end

theorem Inv.begin (inv : world.Inv) (fits : world.counter + 1 < u64Max)
    (absent : world.calls.lookup task = none) (place : Place) (kind : Kind)
    (data : Json) : (world.begin task place kind data).Inv := by
  have next : world.nextCount = world.counter + 1 := nextCounter_of_lt fits.le
  have kept : ∀ {other rival}, world.calls.lookup other = some rival →
      (world.begin task place kind data).calls.lookup other =
        some rival := by
    intro other rival isRival
    refine lookup_insert.trans ?_
    rw [if_neg, isRival]
    rintro rfl
    rw [absent] at isRival
    cases isRival
  have cases_ : ∀ {other rival},
      (world.begin task place kind data).calls.lookup other = some rival →
      (other = task ∧ rival = ⟨⟨place, kind, world.nextCount, data⟩, .drawn⟩) ∨
      world.calls.lookup other = some rival := by
    intro other rival isRival
    simp only [DataWorld.begin, lookup_insert] at isRival
    split at isRival
    next same => exact .inl ⟨same, (Option.some.inj isRival).symm⟩
    · exact .inr isRival
  refine ⟨?_, ?_, ?_, ?_, ?_, ?_, ?_, ?_, ?_⟩
  · exact forall_mem_snoc inv.bound (lt_of_eq_of_lt next fits)
  · intro update accepted
    change update.count ≤ world.nextCount
    rw [next]
    rcases mem_append.mp accepted with old | new
    · exact Nat.le_succ_of_le (inv.counts update old)
    · rw [mem_singleton.mp new]
      exact next.le
  · intro other rival isRival
    rcases cases_ isRival with new | old
    · rw [new.2]
      exact ⟨mem_append_right _ (mem_singleton_self _),
        fun has => (by cases has), fun _ isRead => (by cases isRead),
        fun _ isPointed => (by cases isPointed)⟩
    · exact (inv.calls other rival old).congr
        (fun _ member => mem_append_left _ member) (fun _ => id) rfl
  · intro one two left right isLeft isRight same
    rcases cases_ isLeft with ⟨isOne, rfl⟩ | oldLeft
    · rcases cases_ isRight with ⟨isTwo, rfl⟩ | oldRight
      · exact isOne.trans isTwo.symm
      · have below := inv.call_count oldRight
        rw [← same] at below
        exact absurd (next ▸ below) (Nat.not_succ_le_self _)
    · rcases cases_ isRight with ⟨isTwo, rfl⟩ | oldRight
      · have below := inv.call_count oldLeft
        rw [same] at below
        exact absurd (next ▸ below) (Nat.not_succ_le_self _)
      · exact inv.distinct one two left right oldLeft oldRight same
  · intro one two left right before after isLeft leftRead isRight rightRead
    rcases cases_ isLeft with ⟨-, rfl⟩ | oldLeft
    · cases leftRead
    · rcases cases_ isRight with ⟨-, rfl⟩ | oldRight
      · cases rightRead
      · exact inv.reads one two left right before after oldLeft leftRead
          oldRight rightRead
  · intro one two left right id isLeft removes isRight isOpen
    rcases cases_ isLeft with ⟨-, rfl⟩ | oldLeft
    · cases removes
    · rcases cases_ isRight with ⟨-, rfl⟩ | oldRight
      · have older := ((inv.calls one left oldLeft).pointed _ removes).2 id rfl
        have below := inv.call_count oldLeft
        change world.nextCount ≠ id.count
        omega
      · exact inv.removes one two left right id oldLeft removes oldRight isOpen
  · intro named namedKind id isPointer
    obtain ⟨⟨update, accepted, isId, isPlace, isKind, row⟩, open_⟩ :=
      inv.pointer named namedKind id isPointer
    refine ⟨⟨update, mem_append_left _ accepted, isId, isPlace, isKind,
      row⟩, ?_⟩
    intro other rival isRival isOpen
    rcases cases_ isRival with ⟨-, rfl⟩ | old
    · have below := inv.counts update accepted
      have same : id.count = update.count := isId ▸ rfl
      change world.nextCount ≠ id.count
      omega
    · exact open_ other rival old isOpen
  · intro row member
    obtain ⟨⟨update, accepted, isUpdate⟩, owner⟩ := inv.rows row member
    refine ⟨⟨update, mem_append_left _ accepted, isUpdate⟩, ?_⟩
    refine owner.imp id ?_
    rintro ⟨other, rival, isRival, rest⟩
    exact ⟨other, rival, kept isRival, rest⟩
  · intro update accepted
    rcases mem_append.mp accepted with old | new
    · refine (inv.named update old).imp id ?_
      rintro ⟨other, rival, isRival, rest⟩
      exact ⟨other, rival, kept isRival, rest⟩
    · rw [mem_singleton.mp new]
      exact .inr ⟨task, _, AList.lookup_insert _, rfl, rfl⟩

theorem Inv.others (inv : world.Inv)
    (found : world.calls.lookup task = some call) :
    ∀ other rival, other ≠ task → world.calls.lookup other = some rival →
      rival.update.count ≠ call.update.count :=
  fun other rival differs isRival same =>
    differs (inv.distinct other task rival call isRival found same)

theorem Inv.store (inv : world.Inv)
    (found : world.calls.lookup task = some call)
    (isDrawn : call.progress = .drawn) :
    (setProgress { world with
      roomuserdataidAccountdata := world.roomuserdataidAccountdata.put
        call.update.id call.update.data } task call .stored).Inv := by
  have own := inv.calls task call found
  have isOpen : call.progress.isOpen = true := by rw [isDrawn]; rfl
  have stored : (call.update.id, call.update.data) ∈
      world.roomuserdataidAccountdata.put call.update.id call.update.data :=
    mem_put.mpr (.inl rfl)
  have keeps : ∀ id data, id.count ≠ call.update.count →
      (id, data) ∈ world.roomuserdataidAccountdata →
      (id, data) ∈
        world.roomuserdataidAccountdata.put call.update.id call.update.data :=
    fun id data differs member => mem_put.mpr
      (.inr ⟨member, fun same => differs (congrArg DataId.count same)⟩)
  have others := inv.others found
  refine ⟨inv.bound, inv.counts, ?_, inv.distinct_setProgress found,
    inv.reads_setProgress (fun _ => nofun),
    inv.removes_setProgress found isOpen rfl, ?_, ?_, ?_⟩
  · intro other rival isRival
    rcases lookup_setProgress isRival with ⟨-, rfl⟩ | ⟨differs, old⟩
    · exact ⟨own.accepted, fun _ => stored, fun _ isRead => (by cases isRead),
        fun _ isPointed => (by cases isPointed)⟩
    · exact (inv.calls other rival old).congr (fun _ => id)
        (fun _ => keeps _ _ (others other rival differs old)) rfl
  · intro place kind id isPointer
    obtain ⟨⟨update, accepted, isId, isPlace, isKind, row⟩, open_⟩ :=
      inv.pointer place kind id isPointer
    refine ⟨⟨update, accepted, isId, isPlace, isKind, keeps id update.data
      (Ne.symm (open_ task call found isOpen)) row⟩, ?_⟩
    intro other rival isRival rivalOpen
    obtain ⟨earlier, old, wasOpen, same⟩ :=
      openBefore_setProgress found isOpen isRival rivalOpen
    rw [← same]
    exact open_ other earlier old wasOpen
  · intro row member
    rcases mem_put.mp member with new | old
    · rw [new]
      exact ⟨⟨call.update, own.accepted, rfl⟩, .inr ⟨task, _,
        AList.lookup_insert _, .inl ⟨rfl, rfl⟩⟩⟩
    · obtain ⟨isUpdate, owner⟩ := inv.rows row old.1
      refine ⟨isUpdate, owner.imp id ?_⟩
      rintro ⟨other, rival, isRival, rest⟩
      refine ⟨other, rival, lookup_setProgress_of_ne ?_ isRival, rest⟩
      rintro rfl
      cases found.symm.trans isRival
      simp [isDrawn, Progress.hasRow] at rest
  · intro update accepted
    exact (inv.named update accepted).imp id (waiting_setProgress found rfl)

theorem Inv.read (inv : world.Inv) (found : world.calls.lookup task = some call)
    (isStored : call.progress = .stored)
    (orderly : world.Orderly (.proceed task)) : (world.setProgress task call
      (.read (world.pointer call.update))).Inv := by
  have own := inv.calls task call found
  have isOpen : call.progress.isOpen = true := by rw [isStored]; rfl
  obtain ⟨older, quiet⟩ := orderly call found (by rw [isStored]; rfl)
  have alone : ∀ other rival prev, world.calls.lookup other = some rival →
      rival.progress = .read prev →
      rival.update.place = call.update.place →
      rival.update.kind ≠ call.update.kind :=
    fun other rival prev isRival isRead =>
      quiet ⟨other, rival⟩ (lookup_eq_some.mp isRival) (by rw [isRead]; rfl)
  refine ⟨inv.bound, inv.counts, ?_, inv.distinct_setProgress found, ?_,
    inv.removes_setProgress found isOpen rfl, ?_, ?_, ?_⟩
  · intro other rival isRival
    rcases lookup_setProgress isRival with ⟨-, rfl⟩ | ⟨-, old⟩
    · refine ⟨own.accepted, fun _ => own.row (by rw [isStored]; rfl), ?_,
        fun _ isPointed => (by cases isPointed)⟩
      rintro prev isRead
      cases isRead
      exact ⟨rfl, older⟩
    · exact (inv.calls other rival old).congr (fun _ => id) (fun _ => id) rfl
  · intro one two left right before after isLeft leftRead isRight rightRead
      samePlace sameKind
    rcases lookup_setProgress isLeft with ⟨isOne, rfl⟩ | ⟨-, oldLeft⟩
    · rcases lookup_setProgress isRight with ⟨isTwo, -⟩ | ⟨-, oldRight⟩
      · exact isOne.trans isTwo.symm
      · exact absurd sameKind.symm
          (alone two right after oldRight rightRead samePlace.symm)
    · rcases lookup_setProgress isRight with ⟨-, rfl⟩ | ⟨-, oldRight⟩
      · exact absurd sameKind (alone one left before oldLeft leftRead samePlace)
      · exact inv.reads one two left right before after oldLeft leftRead
          oldRight rightRead samePlace sameKind
  · intro place kind id isPointer
    obtain ⟨isRow, open_⟩ := inv.pointer place kind id isPointer
    refine ⟨isRow, fun other rival isRival rivalOpen => ?_⟩
    obtain ⟨earlier, old, wasOpen, same⟩ :=
      openBefore_setProgress found isOpen isRival rivalOpen
    rw [← same]
    exact open_ other earlier old wasOpen
  · intro row member
    obtain ⟨isUpdate, owner⟩ := inv.rows row member
    refine ⟨isUpdate, owner.imp id ?_⟩
    rintro ⟨other, rival, isRival, rest⟩
    by_cases same : other = task
    · subst same
      cases found.symm.trans isRival
      refine ⟨other, _, AList.lookup_insert _, .inl ⟨rfl, ?_⟩⟩
      exact rest.elim And.right (fun removes => by simp [isStored] at removes)
    · exact ⟨other, rival, lookup_setProgress_of_ne same isRival, rest⟩
  · intro update accepted
    exact (inv.named update accepted).imp id (waiting_setProgress found rfl)

theorem setPointer_self (update : Update Place Kind) :
    (world.setPointer update).roomusertypeRoomuserdataid update.place
      update.kind = some update.id := by
  simp [setPointer]

theorem setPointer_cases (update : Update Place Kind) (place : Place)
    (kind : Kind) : (place = update.place ∧ kind = update.kind) ∨
      (world.setPointer update).roomusertypeRoomuserdataid place kind =
        world.roomusertypeRoomuserdataid place kind := by
  by_cases samePlace : place = update.place
  · subst samePlace
    by_cases sameKind : kind = update.kind
    · exact .inl ⟨rfl, sameKind⟩
    · exact .inr (by simp [setPointer, sameKind])
  · exact .inr (by simp [setPointer, samePlace])

variable {prev : Option (DataId Place Kind)}

theorem Inv.point (inv : world.Inv)
    (found : world.calls.lookup task = some call)
    (isRead : call.progress = .read prev) :
    ((world.setPointer call.update).setProgress task call
      (.pointed prev)).Inv := by
  have own := inv.calls task call found
  have isOpen : call.progress.isOpen = true := by rw [isRead]; rfl
  have stored := own.row (by rw [isRead]; rfl)
  obtain ⟨isPrev, older⟩ := own.read prev isRead
  have others := inv.others found
  -- What the old pointer named is older than what the new one names.
  have grows : ∀ update : Update Place Kind,
      (∃ id, world.pointer update = some id ∧ update.count ≤ id.count) →
      ∃ id, (world.setPointer call.update).pointer update = some id ∧
        update.count ≤ id.count := by
    rintro update ⟨id, isPointer, le⟩
    rcases setPointer_cases call.update update.place update.kind with
      ⟨samePlace, sameKind⟩ | same
    · refine ⟨call.update.id, ?_, ?_⟩
      · rw [DataWorld.pointer, samePlace, sameKind]
        exact setPointer_self call.update
      · rw [DataWorld.pointer, samePlace, sameKind] at isPointer
        exact le_trans le (older id (isPrev.symm.trans isPointer)).le
    · exact ⟨id, same.trans isPointer, le⟩
  refine ⟨inv.bound, inv.counts, ?_, inv.distinct_setProgress found,
    inv.reads_setProgress (fun _ => nofun), ?_, ?_, ?_, ?_⟩
  · intro other rival isRival
    rcases lookup_setProgress isRival with ⟨-, rfl⟩ | ⟨differs, old⟩
    · refine ⟨own.accepted, fun has => (by cases has),
        fun _ isRead => (by cases isRead), ?_⟩
      rintro _ ⟨⟩
      refine ⟨⟨call.update.id, setPointer_self call.update, le_rfl⟩, ?_⟩
      intro id isId
      obtain ⟨⟨update, -, rfl, isPlace, isKind, -⟩, -⟩ :=
        inv.pointer call.update.place call.update.kind id (isPrev.trans isId)
      exact ⟨isPlace, isKind, older _ isId⟩
    · have rivalInv := inv.calls other rival old
      refine ⟨rivalInv.accepted, rivalInv.row, ?_, ?_⟩
      · intro before rivalRead
        rcases setPointer_cases call.update rival.update.place
          rival.update.kind with ⟨samePlace, sameKind⟩ | same
        · exact absurd (inv.reads other task rival call before prev old
            rivalRead found isRead samePlace sameKind) differs
        · obtain ⟨isBefore, olderBefore⟩ := rivalInv.read before rivalRead
          exact ⟨same.trans isBefore, olderBefore⟩
      · intro before rivalPointed
        obtain ⟨named, olderBefore⟩ := rivalInv.pointed before rivalPointed
        exact ⟨grows rival.update named, olderBefore⟩
  · intro one two left right id isLeft removes isRight rightOpen
    rcases lookup_setProgress isRight with ⟨-, rfl⟩ | ⟨-, oldRight⟩
    · cases rightOpen
    · rcases lookup_setProgress isLeft with ⟨-, rfl⟩ | ⟨-, oldLeft⟩
      · cases removes
        exact (inv.pointer call.update.place call.update.kind id isPrev).2
          two right oldRight rightOpen
      · exact inv.removes one two left right id oldLeft removes oldRight
          rightOpen
  · intro place kind id isPointer
    rcases setPointer_cases call.update place kind with
      ⟨rfl, rfl⟩ | same
    · have isId : call.update.id = id :=
        Option.some.inj ((setPointer_self call.update).symm.trans isPointer)
      subst isId
      refine ⟨⟨call.update, own.accepted, rfl, rfl, rfl, stored⟩, ?_⟩
      intro other rival isRival rivalOpen
      rcases lookup_setProgress isRival with ⟨-, rfl⟩ | ⟨differs, old⟩
      · cases rivalOpen
      · exact others other rival differs old
    · obtain ⟨isRow, open_⟩ := inv.pointer place kind id
        (same.symm.trans isPointer)
      refine ⟨isRow, fun other rival isRival rivalOpen => ?_⟩
      rcases lookup_setProgress isRival with ⟨-, rfl⟩ | ⟨-, old⟩
      · cases rivalOpen
      · exact open_ other rival old rivalOpen
  · intro row member
    obtain ⟨isUpdate, owner⟩ := inv.rows row member
    refine ⟨isUpdate, ?_⟩
    rcases owner with named | ⟨other, rival, isRival, rest⟩
    · rcases setPointer_cases call.update row.1.place row.1.kind with
        ⟨samePlace, sameKind⟩ | same
      · refine .inr ⟨task, _, AList.lookup_insert _, .inr ?_⟩
        rw [samePlace, sameKind] at named
        exact congrArg _ (isPrev.symm.trans named)
      · exact .inl (same.trans named)
    · by_cases isTask : other = task
      · subst isTask
        cases found.symm.trans isRival
        have isOwn : call.update.id = row.1 :=
          rest.elim And.right (fun removes => by simp [isRead] at removes)
        rw [← isOwn]
        exact .inl (setPointer_self call.update)
      · exact .inr ⟨other, rival, lookup_setProgress_of_ne isTask isRival, rest⟩
  · intro update accepted
    rcases inv.named update accepted with named |
      ⟨other, rival, isRival, rivalOpen, isUpdate⟩
    · exact .inl (grows update named)
    · by_cases isTask : other = task
      · subst isTask
        cases found.symm.trans isRival
        rw [← isUpdate]
        exact .inl ⟨call.update.id, setPointer_self call.update, le_rfl⟩
      · exact .inr ⟨other, rival, lookup_setProgress_of_ne isTask isRival,
          rivalOpen, isUpdate⟩

theorem mem_removePrev {row : DataId Place Kind × Json} :
    row ∈ (world.removePrev prev).roomuserdataidAccountdata ↔
      row ∈ world.roomuserdataidAccountdata ∧ prev ≠ some row.1 := by
  cases prev with
  | none => simp [removePrev]
  | some id =>
      refine mem_erase.trans (and_congr_right (fun _ => ?_))
      rw [Ne, Ne, Option.some_inj, eq_comm]

theorem Inv.remove (inv : world.Inv)
    (found : world.calls.lookup task = some call)
    (isPointed : call.progress = .pointed prev) :
    Inv { world.removePrev prev with
      calls := (world.removePrev prev).calls.erase task } := by
  obtain ⟨⟨named, isNamed, le⟩, older⟩ :=
    (inv.calls task call found).pointed prev isPointed
  have same : world.removePrev prev = { world with
      roomuserdataidAccountdata :=
        (world.removePrev prev).roomuserdataidAccountdata } := by
    cases prev <;> rfl
  have kept : ∀ {other rival},
      (world.calls.erase task).lookup other = some rival →
      world.calls.lookup other = some rival := by
    intro other rival isRival
    rw [lookup_erase] at isRival
    split at isRival
    · cases isRival
    · exact isRival
  have stays : ∀ {other rival}, other ≠ task →
      world.calls.lookup other = some rival →
      (world.calls.erase task).lookup other = some rival :=
    fun differs isRival =>
      (lookup_erase.trans (if_neg differs)).trans isRival
  rw [same]
  refine ⟨inv.bound, inv.counts, ?_, ?_, ?_, ?_, ?_, ?_, ?_⟩
  · intro other rival isRival
    refine (inv.calls other rival (kept isRival)).congr (fun _ => id) ?_ rfl
    intro has row
    refine mem_removePrev.mpr ⟨row, ?_⟩
    rintro rfl
    have isOpen : rival.progress.isOpen = true := by
      cases progress : rival.progress <;> rw [progress] at has <;>
        first | rfl | cases has
    exact inv.removes task other call rival _ found isPointed (kept isRival)
      isOpen rfl
  · exact fun one two left right isLeft isRight =>
      inv.distinct one two left right (kept isLeft) (kept isRight)
  · exact fun one two left right before after isLeft leftRead isRight =>
      inv.reads one two left right before after (kept isLeft) leftRead
        (kept isRight)
  · exact fun one two left right id isLeft removes isRight =>
      inv.removes one two left right id (kept isLeft) removes (kept isRight)
  · intro place kind id isPointer
    obtain ⟨⟨update, accepted, isId, isPlace, isKind, row⟩, open_⟩ :=
      inv.pointer place kind id isPointer
    refine ⟨⟨update, accepted, isId, isPlace, isKind,
      mem_removePrev.mpr ⟨row, ?_⟩⟩,
      fun other rival isRival => open_ other rival (kept isRival)⟩
    rintro isPrev
    obtain ⟨samePlace, sameKind, less⟩ := older id isPrev
    have idPlace : id.place = place := isId ▸ isPlace
    have idKind : id.kind = kind := isId ▸ isKind
    rw [← idPlace, ← idKind, samePlace, sameKind] at isPointer
    cases isNamed.symm.trans isPointer
    exact absurd less (not_lt.mpr le)
  · intro row member
    obtain ⟨isRow, differs⟩ := mem_removePrev.mp member
    obtain ⟨isUpdate, owner⟩ := inv.rows row isRow
    refine ⟨isUpdate, owner.imp id ?_⟩
    rintro ⟨other, rival, isRival, rest⟩
    refine ⟨other, rival, stays ?_ isRival, rest⟩
    rintro rfl
    cases found.symm.trans isRival
    rw [isPointed] at rest
    rcases rest with ⟨has, -⟩ | removes
    · cases has
    · cases removes
      exact differs rfl
  · intro update accepted
    refine (inv.named update accepted).imp id ?_
    rintro ⟨other, rival, isRival, rivalOpen, isUpdate⟩
    refine ⟨other, rival, stays ?_ isRival, rivalOpen, isUpdate⟩
    rintro rfl
    cases found.symm.trans isRival
    rw [isPointed] at rivalOpen
    cases rivalOpen

theorem Inv.step (inv : world.Inv) {action : DataAction Place Kind}
    (orderly : world.Orderly action) : (world.step action).1.Inv := by
  cases action with
  | update task place kind data =>
      simp only [DataWorld.step]
      split
      · exact inv
      next absent =>
        split
        · exact inv
        · exact inv.begin orderly absent place kind data
  | proceed task =>
      simp only [DataWorld.step]
      split
      · exact inv
      next call found =>
        unfold DataWorld.proceed
        split
        next isDrawn => exact inv.store found isDrawn
        next isStored => exact inv.read found isStored orderly
        next prev isRead => exact inv.point found isRead
        next prev isPointed => exact inv.remove found isPointed

end

theorem inv_start (counter : Nat) :
    (start counter : DataWorld Place Kind).Inv where
  bound := fun _ member => by cases member
  counts := fun _ member => by cases member
  calls := fun _ _ found => by cases found
  distinct := fun _ _ _ _ found => by cases found
  reads := fun _ _ _ _ _ _ found => by cases found
  removes := fun _ _ _ _ _ found => by cases found
  pointer := fun _ _ _ found => by cases found
  rows := fun _ member => by cases member
  named := fun _ member => by cases member

theorem tidy_of_orderly {counter : Nat} {world : DataWorld Place Kind}
    {history : List (Entry (DataWorld Place Kind) (DataAction Place Kind)
      DataOutcome)}
    (reaches : Reaches step (start counter) history world)
    (orderly : Always (fun _ entry => entry.before.Orderly entry.input)
      history) : world.Tidy := by
  have inv : world.Inv :=
    reaches.invariant (fun _ world => world.Inv) (inv_start counter)
      (fun _ _ _ inv orderly => inv.step orderly) orderly
  exact inv.tidy

end DataWorld

namespace TwoUpdates

def tags (content : String) : Json :=
  .obj [("type", .str "m.tag"), ("content", .str content)]

def room : Nat := 0

def tag : Nat := 0

def started : List (DataAction Nat Nat) :=
  [.update 0 room tag (tags "old"), .update 1 room tag (tags "new"),
    .proceed 0, .proceed 1]

/-- The second update reads the pointer when the first has written it. -/
def inTurn : List (DataAction Nat Nat) :=
  started ++ [.proceed 0, .proceed 0, .proceed 1, .proceed 0, .proceed 1,
    .proceed 1]

theorem inTurn_tidy :
    (run DataWorld.step (.start 0) inTurn).2.calls.entries.isEmpty = true ∧
      (run DataWorld.step (.start 0) inTurn).2.Tidy := by
  refine ⟨by decide +kernel, DataWorld.tidy_of_orderly
    (reaches_run DataWorld.step (.start 0) inTurn) (Always.of_forall_mem ?_)⟩
  decide +kernel

/-- Both read the pointer before one of them writes it. -/
def crossed : List (DataAction Nat Nat) :=
  started ++ [.proceed 0, .proceed 1, .proceed 0, .proceed 1, .proceed 0,
    .proceed 1]

theorem crossed_twoRows : Reaches DataWorld.step (.start 0)
        (run DataWorld.step (.start 0) crossed).1
        (run DataWorld.step (.start 0) crossed).2 ∧
      ¬ (run DataWorld.step (.start 0) crossed).2.Tidy := by
  refine ⟨reaches_run DataWorld.step (.start 0) crossed, fun tidy => ?_⟩
  have done : (run DataWorld.step (.start 0) crossed).2.calls.entries = [] :=
    List.isEmpty_iff.mp (by decide +kernel)
  have idle : (run DataWorld.step (.start 0) crossed).2.Idle room tag := by
    intro task call found
    have listed := lookup_eq_some.mp found
    rw [done] at listed
    cases listed
  obtain ⟨latest, -, -, -, -, oneRow⟩ := tidy room tag idle (by decide +kernel)
  have changes := congrArg length (oneRow.changes none none)
  have two : (((run DataWorld.step (.start 0) crossed).2.changedRows room none
      none).filter (fun row => row.1.kind = tag)).length = 2 := by
    decide +kernel
  rw [two] at changes
  cases changes

end TwoUpdates

end ArcanaServer.AccountData
