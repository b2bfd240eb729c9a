import ArcanaServer.Library.Trace
import ArcanaServer.Rooms.ShortCalls

namespace ArcanaServer.Rooms

open Library ArcanaServer.Matrix ShortTables Option

variable {Digest : Type} [DecidableEq Digest]

namespace ShortWorld

variable (world : ShortWorld Digest)

/-- The input has an id, written or only drawn. -/
def Known (input : ShortInput Digest) (short : ShortId) : Prop :=
  world.tables.find input = some short ∨ ∃ call index,
      world.item call index = some { input, progress := .drawn short }

def Creating (input : ShortInput Digest) : Prop :=
  ∃ call index progress,
    world.item call index = some { input, progress } ∧ progress.Creating

structure Sound : Prop where
  bounded : ∀ input short, world.Known input short →
    short ≤ world.tables.counter
  injective : ∀ input other short, world.Known input short →
    world.Known other short → input = other
  missing : ∀ call index input progress,
    world.item call index = some { input, progress } →
    progress = .absent ∨ (∃ short, progress = .drawn short) →
    world.tables.find input = none
  alone : ∀ call index other position input progress rival,
    world.item call index = some { input, progress } →
    world.item other position = some { input, progress := rival } →
    progress.Creating → rival.Creating → other = call ∧ position = index
  assigned : ∀ call index input short,
    world.item call index = some { input, progress := .assigned short } →
    world.tables.find input = some short
  finished : ∀ call index input short,
    world.item call index = some { input, progress := .finished short } →
    world.tables.find input = some short ∧ world.tables.Recalls short input
  recalled : ∀ input short, world.tables.find input = some short →
    world.tables.Recalls short input ∨ ∃ call index,
        world.item call index = some { input, progress := .assigned short }

/-- What keeps the calls apart: no input is looked up while another call is
creating its id, a chunk does not repeat an input that has no id, and the
counter is not exhausted when an id is drawn. -/
def Apart : ShortAction Digest → Prop
  | .start _ => True
  | .lookup call first width =>
      ∀ index input, first ≤ index → index < first + width →
        world.item call index = some { input, progress := .waiting } →
        ¬ world.Creating input ∧ (world.tables.find input = none →
            ∀ position, first ≤ position → position < first + width →
              world.item call position =
                some { input, progress := .waiting } → position = index)
  | .proceed call index =>
      ∀ input, world.item call index = some { input, progress := .absent } →
        world.tables.counter < u64Max
  | .count => True

section

variable {world : ShortWorld Digest}

omit [DecidableEq Digest] in
theorem Sound.of_idle {after : ShortWorld Digest} (sound : world.Sound)
    (sameFind : ∀ input, after.tables.find input = world.tables.find input)
    (sameRecalls : ∀ short input, after.tables.Recalls short input ↔
      world.tables.Recalls short input)
    (counter : world.tables.counter ≤ after.tables.counter)
    (old : ∀ call index item, after.item call index = some item →
      world.item call index = some item ∨ item.progress = .waiting)
    (kept : ∀ call index item, world.item call index = some item →
      after.item call index = some item) : after.Sound := by
  have older : ∀ {call index input progress},
      after.item call index = some { input, progress } →
      progress ≠ .waiting →
      world.item call index = some { input, progress } := by
    intro call index input progress found active
    rcases old call index _ found with before | waiting
    · exact before
    · exact absurd waiting active
  have known : ∀ {input short}, after.Known input short →
      world.Known input short := by
    rintro input short (written | ⟨call, index, drawn⟩)
    · exact .inl (sameFind input ▸ written)
    · exact .inr ⟨call, index, older drawn (by simp)⟩
  have active : ∀ {progress : Progress}, progress.Creating →
      progress ≠ .waiting := by
    rintro progress creating rfl
    exact creating
  refine ⟨?_, ?_, ?_, ?_, ?_, ?_, ?_⟩
  · intro input short isKnown
    exact Nat.le_trans (sound.bounded input short (known isKnown)) counter
  · intro input other short left right
    exact sound.injective input other short (known left) (known right)
  · intro call index input progress found creating
    rw [sameFind]
    refine sound.missing call index input progress (older found ?_) creating
    rcases creating with rfl | ⟨short, rfl⟩ <;> simp
  · intro call index other position input progress rival found rivalFound
      creating rivalCreating
    exact sound.alone call index other position input progress rival
      (older found (active creating)) (older rivalFound (active rivalCreating))
      creating rivalCreating
  · intro call index input short found
    rw [sameFind]
    exact sound.assigned call index input short (older found (by simp))
  · intro call index input short found
    rw [sameFind, sameRecalls]
    exact sound.finished call index input short (older found (by simp))
  · intro input short found
    rw [sameFind] at found
    rw [sameRecalls]
    rcases sound.recalled input short found with recalls | pending
    · exact .inl recalls
    · obtain ⟨call, index, isAssigned⟩ := pending
      exact .inr ⟨call, index, kept call index _ isAssigned⟩

theorem item_start_of_item {operation : Operation Digest} {call index : Nat}
    {item : Item Digest} (found : world.item call index = some item) :
    (world.act (.start operation)).item call index = some item := by
  obtain ⟨items, isCall, isItem⟩ := bind_eq_some_iff.mp found
  refine bind_eq_some_iff.mpr ⟨items, ?_, isItem⟩
  exact List.getElem?_append_left (List.getElem?_eq_some_iff.mp isCall).1 ▸
    isCall

theorem Sound.start (sound : world.Sound) (operation : Operation Digest) :
    (world.act (.start operation)).Sound :=
  sound.of_idle (fun _ => rfl) (fun _ _ => Iff.rfl) (Nat.le_refl _)
    (fun _ _ _ => item_start) (fun _ _ _ => item_start_of_item)

theorem Sound.count (sound : world.Sound) : (world.act .count).Sound :=
  sound.of_idle (fun input => by cases input <;> rfl)
    (fun short input => by cases input <;> exact Iff.rfl)
    (Short.nextCount_le world.tables.toShort)
    (fun _ _ _ found => .inl found) (fun _ _ _ found => found)

variable {call index first width other position : Nat}
  {input : ShortInput Digest} {progress : Progress} {short : ShortId}

section

omit [DecidableEq Digest]

theorem item_lookup_cases
    (found : (world.lookup call first width).item other position =
      some { input, progress }) :
    world.item other position = some { input, progress } ∨
      other = call ∧ first ≤ position ∧ position < first + width ∧
        world.item call position = some { input, progress := .waiting } ∧
        ((∃ short, world.tables.find input = some short ∧
            progress = .finished short) ∨
          world.tables.find input = none ∧ progress = .absent) := by
  obtain ⟨⟨oldInput, oldProgress⟩, before, same | looked⟩ := item_lookup found
  · exact .inl (same ▸ before)
  · obtain ⟨rfl, above, below, isLooked⟩ := looked
    cases oldProgress with
    | waiting =>
        right
        cases answer : world.tables.find oldInput with
        | none =>
            simp only [lookupItem, answer, Item.mk.injEq] at isLooked
            obtain ⟨rfl, rfl⟩ := isLooked
            exact ⟨rfl, above, below, before, .inr ⟨answer, rfl⟩⟩
        | some short =>
            simp only [lookupItem, answer, Item.mk.injEq] at isLooked
            obtain ⟨rfl, rfl⟩ := isLooked
            exact ⟨rfl, above, below, before, .inl ⟨short, answer, rfl⟩⟩
    | absent | drawn | assigned | finished =>
        left
        simp only [lookupItem] at isLooked
        rw [before, isLooked]

theorem item_lookup_of_ne_waiting
    (found : world.item other position = some { input, progress })
    (active : progress ≠ .waiting) :
    (world.lookup call first width).item other position =
      some { input, progress } := by
  unfold lookup
  rw [item_modify]
  split
  · obtain ⟨items, isCall, isItem⟩ := bind_eq_some_iff.mp found
    have untouched : lookupItem world.tables { input, progress } =
        { input, progress } := by
      cases progress with
      | waiting => exact absurd rfl active
      | absent | drawn | assigned | finished => rfl
    rw [isCall, map_some, bind_some, List.getElem?_mapIdx,
      isItem, map_some, untouched, ite_self]
  · exact found

theorem Sound.lookup (sound : world.Sound)
    (apart : world.Apart (.lookup call first width)) :
    (world.lookup call first width).Sound := by
  have known : ∀ {input short},
      (world.lookup call first width).Known input short →
        world.Known input short := by
    rintro input short (written | ⟨other, position, drawn⟩)
    · exact .inl written
    · rcases item_lookup_cases drawn with before | answered
      · exact .inr ⟨other, position, before⟩
      · obtain ⟨-, -, -, -, ⟨_, -, isOther⟩ | ⟨-, isOther⟩⟩ := answered <;>
          cases isOther
  refine ⟨?_, ?_, ?_, ?_, ?_, ?_, ?_⟩
  · intro input short isKnown
    exact sound.bounded input short (known isKnown)
  · intro input other short left right
    exact sound.injective input other short (known left) (known right)
  · intro other position input progress found creating
    rcases item_lookup_cases found with before | answered
    · exact sound.missing _ _ _ _ before creating
    · obtain ⟨-, -, -, -, ⟨short, -, isFinished⟩ | ⟨missing, -⟩⟩ := answered
      · subst isFinished
        rcases creating with isAbsent | ⟨_, isDrawn⟩
        · cases isAbsent
        · cases isDrawn
      · exact missing
  · intro left leftIndex right rightIndex input progress rival found
      rivalFound creating rivalCreating
    rcases item_lookup_cases found with before | answered
    · rcases item_lookup_cases rivalFound with rivalBefore | answered
      · exact sound.alone _ _ _ _ _ _ _ before rivalBefore creating
          rivalCreating
      · obtain ⟨rfl, above, below, waiting, -⟩ := answered
        have free := (apart rightIndex input above below waiting).1
        exact absurd ⟨left, leftIndex, progress, before, creating⟩ free
    · obtain ⟨rfl, above, below, waiting, answer⟩ := answered
      obtain ⟨free, once⟩ := apart leftIndex input above below waiting
      rcases item_lookup_cases rivalFound with rivalBefore | rivalAnswered
      · exact absurd ⟨right, rightIndex, rival, rivalBefore, rivalCreating⟩ free
      · obtain ⟨rfl, rivalAbove, rivalBelow, rivalWaiting, -⟩ := rivalAnswered
        obtain ⟨_, -, isFinished⟩ | ⟨missing, -⟩ := answer
        · subst isFinished
          exact creating.elim
        · exact ⟨rfl, once missing rightIndex rivalAbove rivalBelow
            rivalWaiting⟩
  · intro other position input short found
    rcases item_lookup_cases found with before | answered
    · exact sound.assigned _ _ _ _ before
    · obtain ⟨-, -, -, -, ⟨_, -, isOther⟩ | ⟨-, isOther⟩⟩ := answered <;>
        cases isOther
  · intro other position input short found
    rcases item_lookup_cases found with before | answered
    · exact sound.finished _ _ _ _ before
    · obtain ⟨-, above, below, waiting, ⟨_, isKnown, isFinished⟩ |
        ⟨-, isOther⟩⟩ := answered
      · cases isFinished
        refine ⟨isKnown, ?_⟩
        rcases sound.recalled input short isKnown with recalls | pending
        · exact recalls
        · obtain ⟨creator, place, isAssigned⟩ := pending
          have free := (apart position input above below waiting).1
          exact absurd ⟨creator, place, .assigned short, isAssigned,
            trivial⟩ free
      · cases isOther
  · intro input short found
    rcases sound.recalled input short found with recalls | pending
    · exact .inl recalls
    · obtain ⟨creator, place, isAssigned⟩ := pending
      exact .inr ⟨creator, place,
        item_lookup_of_ne_waiting isAssigned (by simp)⟩

end

def changed (world : ShortWorld Digest) (tables : ShortTables Digest)
    (call index : Nat) (progress : Progress) : ShortWorld Digest :=
  { world with tables }.setProgress call index progress

section

variable {tables : ShortTables Digest} {next : Progress}
omit [DecidableEq Digest]

theorem item_changed
    (current : world.item call index = some { input, progress })
    {item : Item Digest}
    (found : (world.changed tables call index next).item other position =
      some item) :
    (other = call ∧ position = index ∧ item = { input, progress := next }) ∨
      ¬ (other = call ∧ position = index) ∧
        world.item other position = some item := by
  rcases item_setProgress found with here | elsewhere
  · obtain ⟨rfl, rfl, before, wasItem, rfl⟩ := here
    cases some.inj (current.symm.trans wasItem)
    exact .inl ⟨rfl, rfl, rfl⟩
  · exact .inr elsewhere

theorem item_changed_of_ne {item : Item Digest}
    (elsewhere : ¬ (other = call ∧ position = index))
    (found : world.item other position = some item) :
    (world.changed tables call index next).item other position = some item := by
  unfold changed setProgress
  rw [item_modify]
  split
  · rename_i same
    obtain ⟨items, isCall, isItem⟩ := bind_eq_some_iff.mp found
    have different : index ≠ position := fun here =>
      elsewhere ⟨same, here.symm⟩
    rw [isCall, map_some, bind_some, List.getElem?_modify,
      isItem, map_eq_map, map_some, if_neg different]
  · exact found

theorem item_changed_self
    (current : world.item call index = some { input, progress }) :
    (world.changed tables call index next).item call index =
      some { input, progress := next } := by
  obtain ⟨items, isCall, isItem⟩ := bind_eq_some_iff.mp current
  unfold changed setProgress
  rw [item_modify, if_pos rfl, isCall, map_some, bind_some,
    List.getElem?_modify, isItem, map_eq_map, map_some,
    if_pos rfl]

end

section

variable (sound : world.Sound)
include sound

section

variable {tables : ShortTables Digest} {next : Progress}
  (current : world.item call index = some { input, progress })
  (creating : progress.Creating)
include current creating

omit [DecidableEq Digest] in
/-- No action on one item adds a second item that creates the same id. -/
theorem Sound.alone_changed {left leftIndex right rightIndex : Nat}
    {shared : ShortInput Digest} {mine rival : Progress}
    (found : (world.changed tables call index next).item left leftIndex =
      some { input := shared, progress := mine })
    (rivalFound : (world.changed tables call index next).item right
      rightIndex = some { input := shared, progress := rival })
    (mineCreating : mine.Creating) (rivalCreating : rival.Creating) :
    right = left ∧ rightIndex = leftIndex := by
  rcases item_changed current found with here | elsewhere
  · obtain ⟨rfl, rfl, isCurrent⟩ := here
    cases isCurrent
    rcases item_changed current rivalFound with rivalHere | elsewhere
    · exact ⟨rivalHere.1, rivalHere.2.1⟩
    · exact sound.alone _ _ _ _ _ _ _ current elsewhere.2 creating rivalCreating
  · rcases item_changed current rivalFound with rivalHere | rivalElsewhere
    · obtain ⟨rfl, rfl, isCurrent⟩ := rivalHere
      cases isCurrent
      exact sound.alone _ _ _ _ _ _ _ elsewhere.2 current mineCreating creating
    · exact sound.alone _ _ _ _ _ _ _ elsewhere.2 rivalElsewhere.2
        mineCreating rivalCreating

omit [DecidableEq Digest] in
/-- A step of one item touches the row of its input only. -/
theorem Sound.changed (counter : world.tables.counter ≤ tables.counter)
    (known : ∀ shared short, (world.changed tables call index next).Known
      shared short → world.Known shared short ∨
        shared = input ∧ world.tables.counter < short ∧ short ≤ tables.counter)
    (frame : ∀ shared, shared ≠ input →
      tables.find shared = world.tables.find shared)
    (kept : ∀ short, world.tables.find input = some short →
      tables.find input = some short)
    (recalls : ∀ shared short, world.tables.find shared = some short →
      world.tables.Recalls short shared → tables.Recalls short shared)
    (missing : next = .absent ∨ (∃ short, next = .drawn short) →
      tables.find input = none) (assigned : ∀ short, next = .assigned short →
      tables.find input = some short)
    (finished : ∀ short, next = .finished short →
      tables.find input = some short ∧ tables.Recalls short input)
    (recalled : ∀ short, tables.find input = some short →
      tables.Recalls short input ∨ next = .assigned short) :
    (world.changed tables call index next).Sound := by
  have different {other position : Nat} {shared : ShortInput Digest}
      {rival : Progress} (elsewhere : ¬ (other = call ∧ position = index))
      (found : world.item other position = some ⟨shared, rival⟩)
      (rivalCreating : rival.Creating) : shared ≠ input := by
    rintro rfl
    exact elsewhere (sound.alone _ _ _ _ _ _ _ current found creating
      rivalCreating)
  refine ⟨?_, ?_, ?_, ?_, ?_, ?_, ?_⟩
  · intro shared short isKnown
    rcases known shared short isKnown with before | ⟨-, -, atMost⟩
    · exact Nat.le_trans (sound.bounded shared short before) counter
    · exact atMost
  · intro left right short leftKnown rightKnown
    rcases known left short leftKnown with leftOld | ⟨leftInput, isNew, -⟩
    · rcases known right short rightKnown with rightOld | ⟨-, isNew, -⟩
      · exact sound.injective left right short leftOld rightOld
      · exact absurd (sound.bounded left short leftOld) (Nat.not_le.mpr isNew)
    · rcases known right short rightKnown with rightOld | ⟨rightInput, -⟩
      · exact absurd (sound.bounded right short rightOld) (Nat.not_le.mpr isNew)
      · rw [leftInput, rightInput]
  · intro other position shared rival found waits
    rcases item_changed current found with ⟨-, -, isCurrent⟩ | elsewhere
    · cases isCurrent
      exact missing waits
    · have rivalCreating : rival.Creating := by
        rcases waits with rfl | ⟨_, rfl⟩ <;> trivial
      exact (frame shared (different elsewhere.1 elsewhere.2
        rivalCreating)).trans (sound.missing _ _ _ _ elsewhere.2 waits)
  · intro left leftIndex right rightIndex shared mine rival found rivalFound
      mineCreating rivalCreating
    exact sound.alone_changed current creating found rivalFound mineCreating
      rivalCreating
  · intro other position shared short found
    rcases item_changed current found with ⟨-, -, isCurrent⟩ | elsewhere
    · cases isCurrent
      exact assigned short rfl
    · exact (frame shared (different elsewhere.1 elsewhere.2 trivial)).trans
        (sound.assigned _ _ _ _ elsewhere.2)
  · intro other position shared short found
    rcases item_changed current found with ⟨-, -, isCurrent⟩ | elsewhere
    · cases isCurrent
      exact finished short rfl
    · obtain ⟨wasFound, wasRecalled⟩ := sound.finished _ _ _ _ elsewhere.2
      refine ⟨?_, recalls shared short wasFound wasRecalled⟩
      by_cases same : shared = input
      · rw [same] at wasFound ⊢
        exact kept short wasFound
      · exact (frame shared same).trans wasFound
  · intro shared short found
    by_cases same : shared = input
    · rw [same] at found ⊢
      refine (recalled short found).imp_right fun isAssigned => ?_
      exact ⟨call, index, isAssigned ▸ item_changed_self current⟩
    · have wasFound := (frame shared same).symm.trans found
      refine (sound.recalled shared short wasFound).imp
        (recalls shared short wasFound) ?_
      rintro ⟨creator, place, isAssigned⟩
      refine ⟨creator, place, item_changed_of_ne ?_ isAssigned⟩
      rintro ⟨rfl, rfl⟩
      cases current.symm.trans isAssigned
      exact same rfl

end

omit [DecidableEq Digest] in
theorem Sound.draw
    (current : world.item call index = some { input, progress := .absent }) :
    (world.changed world.tables.counted call index
      (.drawn (world.tables.counter + 1))).Sound := by
  have isMissing : world.tables.counted.find input = none :=
    (find_counted ..).trans (sound.missing _ _ _ _ current (.inl rfl))
  refine sound.changed current trivial (Nat.le_succ _) ?_
    (fun shared _ => find_counted ..)
    (fun short found => (find_counted ..).trans found)
    (fun shared short _ => (recalls_counted ..).mpr)
    (fun _ => isMissing) (fun short isNext => by cases isNext)
    (fun short isNext => by cases isNext) (fun short found => ?_)
  · rintro shared short (written | ⟨other, position, isDrawn⟩)
    · exact .inl (.inl ((find_counted ..).symm.trans written))
    · rcases item_changed current isDrawn with ⟨-, -, isCurrent⟩ | elsewhere
      · cases isCurrent
        exact .inr ⟨rfl, Nat.lt_succ_self _, le_rfl⟩
      · exact .inl (.inr ⟨_, _, elsewhere.2⟩)
  · cases isMissing.symm.trans found

theorem Sound.assign (current :
      world.item call index = some { input, progress := .drawn short }) :
    (world.changed (world.tables.assign input short) call index
      (.assigned short)).Sound := by
  have isMissing : world.tables.find input = none :=
    sound.missing _ _ _ _ current (.inr ⟨short, rfl⟩)
  have isFound : (world.tables.assign input short).find input = some short := by
    rw [find_assign, if_pos rfl]
  have frame (shared : ShortInput Digest) (differs : shared ≠ input) :
      (world.tables.assign input short).find shared =
        world.tables.find shared := by
    rw [find_assign, if_neg differs]
  refine sound.changed current trivial
    (Nat.le_of_eq (counter_assign ..).symm) ?_ frame (fun known found => ?_)
    (fun shared known _ => (recalls_assign ..).mpr)
    (fun waits => ?_) (fun known isNext => ?_)
    (fun known isNext => by cases isNext) (fun known found => .inr ?_)
  · rintro shared known (written | ⟨other, position, isDrawn⟩)
    · by_cases same : shared = input
      · subst same
        cases isFound.symm.trans written
        exact .inl (.inr ⟨call, index, current⟩)
      · exact .inl (.inl ((frame shared same).symm.trans written))
    · rcases item_changed current isDrawn with ⟨-, -, isCurrent⟩ | elsewhere
      · cases isCurrent
      · exact .inl (.inr ⟨_, _, elsewhere.2⟩)
  · cases isMissing.symm.trans found
  · rcases waits with isNext | ⟨_, isNext⟩ <;> cases isNext
  · cases isNext
    exact isFound
  · rw [some.inj (isFound.symm.trans found)]

omit [DecidableEq Digest] in
theorem Sound.remember (current :
      world.item call index = some { input, progress := .assigned short }) :
    (world.changed (world.tables.remember input short) call index
      (.finished short)).Sound := by
  have isWritten : world.tables.find input = some short :=
    sound.assigned _ _ _ _ current
  have isRecalled := recalls_remember_self world.tables input short
  refine sound.changed current trivial
    (Nat.le_of_eq (counter_remember ..).symm) ?_
    (fun shared _ => find_remember ..)
    (fun known found => (find_remember ..).trans found) ?_
    (fun waits => ?_) (fun known isNext => by cases isNext)
    (fun known isNext => ?_) (fun known found => .inl ?_)
  · rintro shared known (written | ⟨other, position, isDrawn⟩)
    · exact .inl (.inl ((find_remember ..).symm.trans written))
    · rcases item_changed current isDrawn with ⟨-, -, isCurrent⟩ | elsewhere
      · cases isCurrent
      · exact .inl (.inr ⟨_, _, elsewhere.2⟩)
  · intro shared known found wasRecalled
    by_cases same : known = short
    · subst same
      cases sound.injective shared input known (.inl found) (.inl isWritten)
      exact isRecalled
    · exact recalls_remember_of_ne same wasRecalled
  · rcases waits with isNext | ⟨_, isNext⟩ <;> cases isNext
  · cases isNext
    exact ⟨(find_remember ..).trans isWritten, isRecalled⟩
  · rw [find_remember, isWritten] at found
    rw [← some.inj found]
    exact isRecalled

theorem Sound.proceed (apart : world.Apart (.proceed call index)) :
    (world.proceed call index).Sound := by
  unfold ShortWorld.proceed
  split
  · rename_i shared current
    split
    · rw [ShortTables.nextCount_of_lt (apart shared current)]
      exact sound.draw current
    · exact sound
  · rename_i shared known current
    exact sound.assign current
  · rename_i shared known current
    exact sound.remember current
  · exact sound

theorem Sound.act (action : ShortAction Digest) (apart : world.Apart action) :
    (world.act action).Sound := by
  cases action with
  | start operation => exact sound.start operation
  | lookup call first width => exact sound.lookup apart
  | proceed call index => exact sound.proceed apart
  | count => exact sound.count

end

end

omit [DecidableEq Digest] in
theorem sound_empty : (empty : ShortWorld Digest).Sound := by
  have noItem : ∀ call index (item : Item Digest),
      (empty : ShortWorld Digest).item call index ≠ some item := by
    intro call index item found
    simp [ShortWorld.item, empty] at found
  have noRow : ∀ (input : ShortInput Digest) short,
      (empty : ShortWorld Digest).tables.find input ≠ some short := by
    intro input short found
    cases input <;> cases found
  have noneKnown : ∀ (input : ShortInput Digest) short,
      ¬ (empty : ShortWorld Digest).Known input short := by
    rintro input short (written | ⟨call, index, drawn⟩)
    · exact noRow input short written
    · exact noItem call index _ drawn
  exact {
    bounded := fun input short known => absurd known (noneKnown input short)
    injective := fun input _ short known _ =>
      absurd known (noneKnown input short)
    missing := fun call index _ _ found _ =>
      absurd found (noItem call index _)
    alone := fun call index _ _ _ _ _ found _ _ _ =>
      absurd found (noItem call index _)
    assigned := fun call index _ _ found => absurd found (noItem call index _)
    finished := fun call index _ _ found => absurd found (noItem call index _)
    recalled := fun input short found => absurd found (noRow input short) }

def Returned (world : ShortWorld Digest) (input : ShortInput Digest)
    (short : ShortId) : Prop :=
  ∃ call index, world.item call index =
    some { input, progress := .finished short }

/-- Equal inputs have equal ids, distinct inputs distinct ones, and the
reverse tables lead back. -/
structure OneToOne (world : ShortWorld Digest) : Prop where
  ids : ∀ input other short known, world.Returned input short →
    world.Returned other known → (input = other ↔ short = known)
  recalls : ∀ input short, world.Returned input short →
    world.tables.Recalls short input

omit [DecidableEq Digest] in
theorem Sound.oneToOne {world : ShortWorld Digest} (sound : world.Sound) :
    world.OneToOne := by
  refine ⟨?_, ?_⟩
  · rintro input other short known ⟨call, index, left⟩ ⟨rival, position, right⟩
    have leftFound := (sound.finished _ _ _ _ left).1
    have rightFound := (sound.finished _ _ _ _ right).1
    constructor
    · rintro rfl
      exact some.inj (leftFound.symm.trans rightFound)
    · rintro rfl
      exact sound.injective input other short (.inl leftFound) (.inl rightFound)
  · rintro input short ⟨call, index, found⟩
    exact (sound.finished _ _ _ _ found).2

/-- Along a run whose actions all keep the calls apart, every state maps the
inputs one to one to ids. -/
theorem oneToOne_of_apart
    {history : List (Entry (ShortWorld Digest) (ShortAction Digest) Unit)}
    {world : ShortWorld Digest} (reaches : Reaches step empty history world)
    (apart : Always (fun _ entry => entry.before.Apart entry.input) history) :
    world.OneToOne := by
  have sound : world.Sound :=
    reaches.invariant (fun _ state => state.Sound) sound_empty
      (fun _ _ action sound apart => sound.act action apart) apart
  exact sound.oneToOne

omit [DecidableEq Digest] in
theorem apart_of_quiet {world : ShortWorld Digest}
    (quiet : ∀ items ∈ world.calls, ∀ item ∈ items, ¬ item.progress.Creating)
    (call index : Nat) : world.Apart (.lookup call index 1) := by
  intro place input above below waiting
  refine ⟨?_, ?_⟩
  · rintro ⟨creator, position, progress, found, creating⟩
    obtain ⟨items, isCall, isItem⟩ := bind_eq_some_iff.mp found
    exact quiet items (List.mem_of_getElem? isCall) _
      (List.mem_of_getElem? isItem) creating
  · intro _ position rivalAbove rivalBelow _
    omega

def twoCalls : List (ShortAction Nat) :=
  [.start (.getOrCreateShorteventid "$a"), .lookup 0 0 1, .proceed 0 0,
    .proceed 0 0, .proceed 0 0, .start (.getOrCreateShorteventid "$a"),
    .lookup 1 0 1]

theorem twoCalls_oneToOne :
    (run step empty twoCalls).2.Returned (.event "$a") 1 ∧
      (run step empty twoCalls).2.item 1 0 =
        some ⟨.event "$a", .finished 1⟩ ∧
      (run step empty twoCalls).2.OneToOne := by
  refine ⟨⟨0, 0, rfl⟩, rfl, oneToOne_of_apart (reaches_run step empty twoCalls)
      (Always.of_forall_mem ?_)⟩
  intro entry member
  simp only [twoCalls, run, List.mem_cons, List.not_mem_nil, or_false] at member
  rcases member with rfl | rfl | rfl | rfl | rfl | rfl | rfl
  · trivial
  · exact apart_of_quiet (by decide) 0 0
  · exact fun _ _ => by decide
  · exact fun _ _ => by decide
  · exact fun _ _ => by decide
  · trivial
  · exact apart_of_quiet (by decide) 1 0

def repeatedBatch : List (ShortAction Nat) :=
  [.start (.multiGetOrCreateShorteventid ["$a", "$a"]), .lookup 0 0 2,
    .proceed 0 0, .proceed 0 0, .proceed 0 0, .proceed 0 1, .proceed 0 1,
    .proceed 0 1]

theorem repeatedBatch_splits :
    Reaches step empty (run step empty repeatedBatch).1
        (run step empty repeatedBatch).2 ∧
      (run step empty repeatedBatch).2.Returned (.event "$a") 1 ∧
      (run step empty repeatedBatch).2.Returned (.event "$a") 2 ∧
      ¬ (run step empty repeatedBatch).2.OneToOne := by
  have first : (run step empty repeatedBatch).2.Returned (.event "$a") 1 :=
    ⟨0, 0, rfl⟩
  have second : (run step empty repeatedBatch).2.Returned (.event "$a") 2 :=
    ⟨0, 1, rfl⟩
  refine ⟨reaches_run step empty repeatedBatch, first, second, ?_⟩
  intro oneToOne
  exact absurd ((oneToOne.ids _ _ _ _ first second).mp rfl) (by decide)

end ShortWorld

end ArcanaServer.Rooms
