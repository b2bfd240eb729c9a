import ArcanaServer.Rooms.Short

namespace ArcanaServer.Rooms

open ArcanaServer.Matrix Option Function

variable {Digest : Type} [DecidableEq Digest]

/-! Calls of the short service that run side by side.  A call looks its inputs
up, and for an input that it does not find it draws an id and writes it into
one table after the other; other calls can act between any two of these
steps. -/

structure ShortTables (Digest : Type) extends Short Digest where
  roomidShortroomid : RoomId → Option ShortId

inductive ShortInput (Digest : Type) where
  | event (eventId : EventId)
  | stateKey (key : TypeStateKey)
  | room (roomId : RoomId)
  | stateHash (stateHash : Digest)
  deriving DecidableEq

namespace ShortTables

def empty : ShortTables Digest :=
  { Short.empty with roomidShortroomid := fun _ => none }

def find (tables : ShortTables Digest) : ShortInput Digest → Option ShortId
  | .event eventId => tables.eventidShorteventid eventId
  | .stateKey key => tables.statekeyShortstatekey key
  | .room roomId => tables.roomidShortroomid roomId
  | .stateHash stateHash => tables.statehashShortstatehash stateHash

def nextCount (tables : ShortTables Digest) : ShortId × ShortTables Digest :=
  let (fresh, short) := tables.toShort.nextCount
  (fresh, { tables with toShort := short })

variable (tables : ShortTables Digest) (input : ShortInput Digest)
  (short : ShortId)

/-- Writes the id of an input. -/
def assign : ShortTables Digest :=
  match input with
  | .event eventId =>
      { tables with
        eventidShorteventid :=
          update tables.eventidShorteventid eventId (some short) }
  | .stateKey key =>
      { tables with
        statekeyShortstatekey :=
          update tables.statekeyShortstatekey key (some short) }
  | .room roomId =>
      { tables with
        roomidShortroomid :=
          update tables.roomidShortroomid roomId (some short) }
  | .stateHash stateHash =>
      { tables with
        statehashShortstatehash :=
          update tables.statehashShortstatehash stateHash
            (some short) }

/-- Writes the input of an id; room ids and state hashes have no reverse
table. -/
def remember : ShortTables Digest :=
  match input with
  | .event eventId =>
      { tables with
        shorteventidEventid :=
          update tables.shorteventidEventid short (some eventId) }
  | .stateKey key =>
      { tables with
        shortstatekeyStatekey :=
          update tables.shortstatekeyStatekey short (some key) }
  | .room _ => tables
  | .stateHash _ => tables

def Recalls (tables : ShortTables Digest) (short : ShortId) :
    ShortInput Digest → Prop
  | .event eventId => tables.shorteventidEventid short = some eventId
  | .stateKey key => tables.shortstatekeyStatekey short = some key
  | .room _ => True
  | .stateHash _ => True

variable (tables : ShortTables Digest) (input other : ShortInput Digest)

theorem find_assign (short : ShortId) :
    (tables.assign input short).find other =
      if other = input then some short else tables.find other := by
  cases input <;> cases other <;> simp [assign, find, update_apply]

@[simp] theorem counter_assign (input : ShortInput Digest) (short : ShortId) :
    (tables.assign input short).counter = tables.counter := by
  cases input <;> rfl

theorem recalls_assign (short known : ShortId) :
    (tables.assign input short).Recalls known other ↔
      tables.Recalls known other := by
  cases input <;> cases other <;> exact Iff.rfl

section

omit [DecidableEq Digest]

@[simp] theorem find_remember (tables : ShortTables Digest)
    (input other : ShortInput Digest) (short : ShortId) :
    (tables.remember input short).find other = tables.find other := by
  cases input <;> cases other <;> rfl

@[simp] theorem counter_remember (tables : ShortTables Digest)
    (input : ShortInput Digest) (short : ShortId) :
    (tables.remember input short).counter = tables.counter := by
  cases input <;> rfl

theorem recalls_remember_self (tables : ShortTables Digest)
    (input : ShortInput Digest) (short : ShortId) :
    (tables.remember input short).Recalls short input := by
  cases input <;> simp [remember, Recalls]

theorem recalls_remember_of_ne {tables : ShortTables Digest}
    {input other : ShortInput Digest} {short known : ShortId}
    (different : known ≠ short) (recalls : tables.Recalls known other) :
    (tables.remember input short).Recalls known other := by
  cases input <;> cases other <;> simp_all [remember, Recalls]

end

def counted (tables : ShortTables Digest) : ShortTables Digest :=
  { tables with counter := tables.counter + 1 }

section

omit [DecidableEq Digest]

@[simp] theorem find_counted (tables : ShortTables Digest)
    (input : ShortInput Digest) :
    tables.counted.find input = tables.find input := by
  cases input <;> rfl

theorem recalls_counted (tables : ShortTables Digest) (short : ShortId)
    (input : ShortInput Digest) :
    tables.counted.Recalls short input ↔ tables.Recalls short input := by
  cases input <;> exact Iff.rfl

theorem nextCount_of_lt {tables : ShortTables Digest}
    (fits : tables.counter < u64Max) :
    tables.nextCount = (tables.counter + 1, tables.counted) := by
  simp only [nextCount, Short.nextCount_of_lt fits]
  rfl

end

end ShortTables

/-- How far the work on one input of a call is. -/
inductive Progress where
  | waiting
  | absent
  | drawn (short : ShortId)
  | assigned (short : ShortId)
  | finished (short : ShortId)
  deriving DecidableEq

def Progress.Creating : Progress → Prop
  | .absent | .drawn _ | .assigned _ => True
  | .waiting | .finished _ => False

instance : DecidablePred Progress.Creating
  | .absent | .drawn _ | .assigned _ => isTrue trivial
  | .waiting | .finished _ => isFalse id

structure Item (Digest : Type) where
  input : ShortInput Digest
  progress : Progress
  deriving DecidableEq

inductive Operation (Digest : Type) where
  | getOrCreateShorteventid (eventId : EventId)
  | multiGetOrCreateShorteventid (eventIds : List EventId)
  | getOrCreateShortstatekey (key : TypeStateKey)
  | getOrCreateShortroomid (roomId : RoomId)
  | getOrCreateShortstatehash (stateHash : Digest)

def Operation.inputs : Operation Digest → List (ShortInput Digest)
  | .getOrCreateShorteventid eventId => [.event eventId]
  | .multiGetOrCreateShorteventid eventIds => eventIds.map .event
  | .getOrCreateShortstatekey key => [.stateKey key]
  | .getOrCreateShortroomid roomId => [.room roomId]
  | .getOrCreateShortstatehash stateHash => [.stateHash stateHash]

/-- The tables and the calls made so far, each with its inputs in order. -/
structure ShortWorld (Digest : Type) where
  tables : ShortTables Digest
  calls : List (List (Item Digest))

/-- One atomic action: a new call, a lookup of a chunk of the inputs of a call,
the next action on an input that was not found, or an id that is drawn for
something else. -/
inductive ShortAction (Digest : Type) where
  | start (operation : Operation Digest)
  | lookup (call first width : Nat)
  | proceed (call index : Nat)
  | count

namespace ShortWorld

def empty : ShortWorld Digest where
  tables := ShortTables.empty
  calls := []

variable (world : ShortWorld Digest)

variable (call index : Nat)

def item : Option (Item Digest) :=
  world.calls[call]?.bind (fun items => items[index]?)

def lookupItem (tables : ShortTables Digest) (item : Item Digest) :
    Item Digest :=
  match item.progress with
  | .waiting =>
      match tables.find item.input with
      | some short => { item with progress := .finished short }
      | none => { item with progress := .absent }
  | _ => item

def lookup (call first width : Nat) : ShortWorld Digest :=
  { world with
    calls := world.calls.modify call (fun items =>
      items.mapIdx (fun index item =>
        if first ≤ index ∧ index < first + width then
          lookupItem world.tables item
        else item)) }

def setProgress (progress : Progress) : ShortWorld Digest :=
  { world with
    calls := world.calls.modify call (fun items =>
      items.modify index (fun item => { item with progress })) }

/-- The answers of a call come in the order of its inputs. -/
def isNext : Bool :=
  (List.range index).all (fun earlier =>
    match world.item call earlier with
    | some { progress := .finished _, .. } => true
    | _ => false)

def proceed : ShortWorld Digest :=
  match world.item call index with
  | some { progress := .absent, .. } =>
      if world.isNext call index then
        let (fresh, tables) := world.tables.nextCount
        { world with tables }.setProgress call index (.drawn fresh)
      else world
  | some { input, progress := .drawn short } =>
      { world with tables := world.tables.assign input short }.setProgress
        call index (.assigned short)
  | some { input, progress := .assigned short } =>
      { world with tables := world.tables.remember input short }.setProgress
        call index (.finished short)
  | _ => world

def act : ShortAction Digest → ShortWorld Digest
  | .start operation =>
      { world with
        calls := world.calls ++
          [operation.inputs.map (fun input =>
            { input, progress := .waiting })] }
  | .lookup call first width => world.lookup call first width
  | .proceed call index => world.proceed call index
  | .count => { world with tables := world.tables.nextCount.2 }

def step (action : ShortAction Digest) : ShortWorld Digest × Unit :=
  (world.act action, ())

section

variable {world : ShortWorld Digest} {call index other position : Nat}
  {item : Item Digest}

theorem item_start {operation : Operation Digest}
    (found : (world.act (.start operation)).item call index = some item) :
    world.item call index = some item ∨ item.progress = .waiting := by
  obtain ⟨items, isCall, isItem⟩ := bind_eq_some_iff.mp found
  simp only [act] at isCall
  by_cases earlier : call < world.calls.length
  · left
    rw [List.getElem?_append_left earlier] at isCall
    exact bind_eq_some_iff.mpr ⟨items, isCall, isItem⟩
  · right
    rw [List.getElem?_append_right (Nat.le_of_not_lt earlier)] at isCall
    have isNew := List.mem_singleton.mp (List.mem_of_getElem? isCall)
    subst isNew
    obtain ⟨input, -, rfl⟩ := List.mem_map.mp (List.mem_of_getElem? isItem)
    rfl

section

omit [DecidableEq Digest]

theorem item_modify (change : List (Item Digest) → List (Item Digest))
    (tables : ShortTables Digest) :
    ({ tables, calls := world.calls.modify call change } :
        ShortWorld Digest).item other position =
      if other = call then
        (world.calls[other]?.map change).bind (fun items => items[position]?)
      else world.item other position := by
  simp only [item, List.getElem?_modify]
  by_cases same : call = other
  · simp [same]
  · simp [same, Ne.symm same]

theorem item_lookup {first width : Nat}
    (found : (world.lookup call first width).item other position = some item) :
    ∃ before, world.item other position = some before ∧ (item = before ∨
        other = call ∧ first ≤ position ∧ position < first + width ∧
          item = lookupItem world.tables before) := by
  unfold lookup at found
  rw [item_modify] at found
  split at found
  · rename_i same
    obtain ⟨items, isCall, isItem⟩ := bind_eq_some_iff.mp found
    obtain ⟨before, wasCall, rfl⟩ := map_eq_some_iff.mp isCall
    rw [List.getElem?_mapIdx] at isItem
    obtain ⟨old, wasItem, changed⟩ := map_eq_some_iff.mp isItem
    refine ⟨old, bind_eq_some_iff.mpr ⟨before, wasCall, wasItem⟩, ?_⟩
    split at changed
    · rename_i inChunk
      exact .inr ⟨same, inChunk.1, inChunk.2, changed.symm⟩
    · exact .inl changed.symm
  · exact ⟨item, found, .inl rfl⟩

theorem item_setProgress {tables : ShortTables Digest} {progress : Progress}
    (found : ({ world with tables }.setProgress call index progress).item other
      position = some item) :
    (other = call ∧ position = index ∧
        ∃ before, world.item call index = some before ∧
          item = { before with progress }) ∨
      (¬ (other = call ∧ position = index) ∧
        world.item other position = some item) := by
  unfold setProgress at found
  rw [item_modify] at found
  split at found
  · rename_i same
    subst same
    obtain ⟨items, isCall, isItem⟩ := bind_eq_some_iff.mp found
    obtain ⟨before, wasCall, rfl⟩ := map_eq_some_iff.mp isCall
    rw [List.getElem?_modify] at isItem
    obtain ⟨old, wasItem, changed⟩ := map_eq_some_iff.mp isItem
    have wasAt : world.item other position = some old :=
      bind_eq_some_iff.mpr ⟨before, wasCall, wasItem⟩
    by_cases here : index = position
    · subst here
      simp only [if_true] at changed
      exact .inl ⟨rfl, rfl, old, wasAt, changed.symm⟩
    · simp only [here, if_false] at changed
      subst changed
      exact .inr ⟨fun both => here both.2.symm, wasAt⟩
  · rename_i different
    exact .inr ⟨fun both => different both.1, found⟩

end

end

end ShortWorld

end ArcanaServer.Rooms
