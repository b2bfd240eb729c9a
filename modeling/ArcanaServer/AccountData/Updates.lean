import ArcanaServer.Library.EntryTable
import ArcanaServer.Library.Trace
import ArcanaServer.Rooms.Short
import Mathlib.Data.Prod.Lex

namespace ArcanaServer.AccountData

open Library ArcanaServer.Matrix Rooms SortedTable

/-! Account data.  A `Place` is the room, or none, together with the user, and
a `Kind` is the type of the event; the orders are those of the serialized
keys. -/

abbrev DataId (Place Kind : Type) := Place ×ₗ (Nat ×ₗ Kind)

section

variable {Place Kind : Type}

def dataId (place : Place) (count : Nat) (kind : Kind) : DataId Place Kind :=
  toLex (place, toLex (count, kind))

namespace DataId

def place (id : DataId Place Kind) : Place := (ofLex id).1

def count (id : DataId Place Kind) : Nat := (ofLex (ofLex id).2).1

def kind (id : DataId Place Kind) : Kind := (ofLex (ofLex id).2).2

end DataId

end

inductive Error where
  | invalidParam (message : String)
  deriving DecidableEq, Repr

def hasRequiredFields (data : Json) : Bool :=
  match data.asObject with
  | none => false
  | some fields =>
      (fields.lookup "type").isSome && (fields.lookup "content").isSome

/-- An update that has drawn its count. -/
structure Update (Place Kind : Type) where
  place : Place
  kind : Kind
  count : Nat
  data : Json

/-- How far an update is: its count is drawn, its row is written, it has read
the pointer, it has written the pointer. -/
inductive Progress (Place Kind : Type) where
  | drawn
  | stored
  | read (prev : Option (DataId Place Kind))
  | pointed (prev : Option (DataId Place Kind))

namespace Progress

variable {Place Kind : Type}

def isStored : Progress Place Kind → Bool
  | .stored => true
  | .drawn | .read _ | .pointed _ => false

def isRead : Progress Place Kind → Bool
  | .read _ => true
  | .drawn | .stored | .pointed _ => false

/-- The pointer does not name the row of the update yet. -/
def isOpen : Progress Place Kind → Bool
  | .drawn | .stored | .read _ => true
  | .pointed _ => false

def hasRow : Progress Place Kind → Bool
  | .stored | .read _ => true
  | .drawn | .pointed _ => false

end Progress

structure UpdateCall (Place Kind : Type) where
  update : Update Place Kind
  progress : Progress Place Kind

section

variable {Place Kind : Type} [LinearOrder Place] [LinearOrder Kind]

def Update.id (update : Update Place Kind) : DataId Place Kind :=
  dataId update.place update.count update.kind

abbrev TaskId := Nat

/-- The two tables, the counter and the updates that run.  `accepted` are all
updates that ever drew a count. -/
structure DataWorld (Place Kind : Type) [LinearOrder Place]
    [LinearOrder Kind] where
  counter : Nat
  roomuserdataidAccountdata : SortedTable (DataId Place Kind) Json
  roomusertypeRoomuserdataid : Place → Kind → Option (DataId Place Kind)
  calls : EntryTable TaskId (UpdateCall Place Kind)
  accepted : List (Update Place Kind)

inductive DataAction (Place Kind : Type) where
  | update (task : TaskId) (place : Place) (kind : Kind) (data : Json)
  | proceed (task : TaskId)

inductive DataOutcome where
  | finished
  | refused (error : Error)
  | nothing

namespace DataWorld

def start (counter : Nat) : DataWorld Place Kind where
  counter := counter
  roomuserdataidAccountdata := .empty
  roomusertypeRoomuserdataid := fun _ _ => none
  calls := ∅
  accepted := []

variable (world : DataWorld Place Kind)

def nextCount : Nat :=
  nextCounter world.counter

def setProgress (task : TaskId) (call : UpdateCall Place Kind)
    (progress : Progress Place Kind) : DataWorld Place Kind :=
  { world with calls := world.calls.insert task { call with progress } }

def setPointer (update : Update Place Kind) : DataWorld Place Kind :=
  { world with
    roomusertypeRoomuserdataid :=
      Function.update world.roomusertypeRoomuserdataid update.place
        (Function.update (world.roomusertypeRoomuserdataid update.place)
          update.kind (some update.id)) }

def begin (task : TaskId) (place : Place) (kind : Kind) (data : Json) :
    DataWorld Place Kind :=
  let update : Update Place Kind := ⟨place, kind, world.nextCount, data⟩
  { world with
    counter := world.nextCount
    calls := world.calls.insert task ⟨update, .drawn⟩
    accepted := world.accepted ++ [update] }

def removePrev (prev : Option (DataId Place Kind)) : DataWorld Place Kind :=
  match prev with
  | none => world
  | some id =>
      { world with
        roomuserdataidAccountdata := world.roomuserdataidAccountdata.erase id }

def proceed (task : TaskId) (call : UpdateCall Place Kind) :
    DataWorld Place Kind × DataOutcome :=
  match call.progress with
  | .drawn =>
      (setProgress { world with
        roomuserdataidAccountdata := world.roomuserdataidAccountdata.put
          call.update.id call.update.data } task call .stored, .nothing)
  | .stored =>
      (world.setProgress task call (.read
        (world.roomusertypeRoomuserdataid call.update.place
          call.update.kind)), .nothing)
  | .read prev =>
      ((world.setPointer call.update).setProgress task call (.pointed prev),
        .nothing)
  | .pointed prev =>
      let removed := world.removePrev prev
      ({ removed with calls := removed.calls.erase task }, .finished)

def step : DataAction Place Kind → DataWorld Place Kind × DataOutcome
  | .update task place kind data =>
      match world.calls.lookup task with
      | some _ => (world, .nothing)
      | none =>
          if !hasRequiredFields data then
            (world, .refused (.invalidParam
              "Account data doesn't have all required fields."))
          else (world.begin task place kind data, .nothing)
  | .proceed task =>
      match world.calls.lookup task with
      | none => (world, .nothing)
      | some call => world.proceed task call

variable (place : Place)

def getRaw (kind : Kind) : Option Json :=
  (world.roomusertypeRoomuserdataid place kind).bind
    world.roomuserdataidAccountdata.get

/-- The first key of a scan is serialized without a type. -/
def isBelow (first : Nat) (id : DataId Place Kind) : Bool :=
  id.place < place || (id.place = place && id.count < first)

def changedRows (since upTo : Option Nat) : List (DataId Place Kind × Json) :=
  let firstPossible := since.elim 0 (fun since => min (since + 1) u64Max)
  (world.roomuserdataidAccountdata.rows.dropWhile
    (fun row => isBelow place firstPossible row.1)).takeWhile
      (fun row => row.1.place = place &&
        upTo.all (fun upTo => row.1.count ≤ upTo))

structure OneRow (kind : Kind) (update : Update Place Kind) : Prop where
  rows : ∀ row, row ∈ world.roomuserdataidAccountdata ∧
      row.1.place = place ∧ row.1.kind = kind ↔
    row = (dataId place update.count kind, update.data)
  pointer : world.roomusertypeRoomuserdataid place kind =
    some (dataId place update.count kind)
  value : world.getRaw place kind = some update.data
  changes : ∀ since upTo : Option Nat,
    (world.changedRows place since upTo).filter (fun row => row.1.kind = kind) =
      if since.all (fun since => since < update.count) &&
          upTo.all (fun upTo => update.count ≤ upTo) then
        [(dataId place update.count kind, update.data)]
      else []

def Idle (kind : Kind) : Prop :=
  ∀ task call, world.calls.lookup task = some call →
    call.update.place = place → call.update.kind ≠ kind

/-- Wherever no update runs, the row is that of the update with the highest
count. -/
def Tidy : Prop :=
  ∀ place kind, world.Idle place kind →
    (∃ update ∈ world.accepted, update.place = place ∧ update.kind = kind) →
    ∃ latest ∈ world.accepted, latest.place = place ∧ latest.kind = kind ∧
      (∀ update ∈ world.accepted, update.place = place →
        update.kind = kind → update.count ≤ latest.count) ∧
      world.OneRow place kind latest

/-- The counter is not exhausted.  An update reads a pointer that is older than
itself, while no other update of its place and kind is between the read and the
write of the pointer. -/
def Orderly : DataAction Place Kind → Prop
  | .update _ _ _ _ => world.counter + 1 < u64Max
  | .proceed task => ∀ call ∈ world.calls.lookup task,
      call.progress.isStored = true →
      (∀ id ∈ world.roomusertypeRoomuserdataid call.update.place
          call.update.kind, id.count < call.update.count) ∧
      ∀ rival ∈ world.calls.entries, rival.2.progress.isRead = true →
        rival.2.update.place = call.update.place →
        rival.2.update.kind ≠ call.update.kind

instance (world : DataWorld Place Kind) : DecidablePred world.Orderly
  | .update _ _ _ _ =>
      inferInstanceAs (Decidable (world.counter + 1 < u64Max))
  | .proceed task => inferInstanceAs (Decidable
      (∀ call ∈ world.calls.lookup task, call.progress.isStored = true →
        (∀ id ∈ world.roomusertypeRoomuserdataid call.update.place
            call.update.kind, id.count < call.update.count) ∧
        ∀ rival ∈ world.calls.entries, rival.2.progress.isRead = true →
          rival.2.update.place = call.update.place →
          rival.2.update.kind ≠ call.update.kind))

end DataWorld

end

variable {Place Kind : Type} [LinearOrder Place] [LinearOrder Kind]

namespace DataWorld

variable (world : DataWorld Place Kind)

def pointer (update : Update Place Kind) : Option (DataId Place Kind) :=
  world.roomusertypeRoomuserdataid update.place update.kind

/-- What holds of a running update.  What it has read is what the pointer still
names, and what it will remove is older than what the pointer names. -/
structure CallInv (call : UpdateCall Place Kind) : Prop where
  accepted : call.update ∈ world.accepted
  row : call.progress.hasRow = true →
    (call.update.id, call.update.data) ∈ world.roomuserdataidAccountdata
  read : ∀ prev, call.progress = .read prev → world.pointer call.update = prev ∧
      ∀ id, prev = some id → id.count < call.update.count
  pointed : ∀ prev, call.progress = .pointed prev →
    (∃ id, world.pointer call.update = some id ∧ call.update.count ≤ id.count) ∧
    ∀ id, prev = some id → id.place = call.update.place ∧
      id.kind = call.update.kind ∧ id.count < call.update.count

structure Inv : Prop where
  bound : ∀ update ∈ world.accepted, update.count < u64Max
  counts : ∀ update ∈ world.accepted, update.count ≤ world.counter
  calls : ∀ task call, world.calls.lookup task = some call → world.CallInv call
  distinct : ∀ one two left right, world.calls.lookup one = some left →
    world.calls.lookup two = some right →
    left.update.count = right.update.count → one = two
  reads : ∀ one two left right before after,
    world.calls.lookup one = some left → left.progress = .read before →
    world.calls.lookup two = some right → right.progress = .read after →
    left.update.place = right.update.place →
    left.update.kind = right.update.kind → one = two
  removes : ∀ one two left right id, world.calls.lookup one = some left →
    left.progress = .pointed (some id) →
    world.calls.lookup two = some right → right.progress.isOpen = true →
    right.update.count ≠ id.count
  pointer : ∀ place kind id,
    world.roomusertypeRoomuserdataid place kind = some id →
    (∃ update ∈ world.accepted, update.id = id ∧ update.place = place ∧
      update.kind = kind ∧
      (id, update.data) ∈ world.roomuserdataidAccountdata) ∧
    ∀ task call, world.calls.lookup task = some call →
      call.progress.isOpen = true → call.update.count ≠ id.count
  rows : ∀ row ∈ world.roomuserdataidAccountdata,
    (∃ update ∈ world.accepted, row = (update.id, update.data)) ∧
    (world.roomusertypeRoomuserdataid row.1.place row.1.kind = some row.1 ∨
      ∃ task call, world.calls.lookup task = some call ∧
        (call.progress.hasRow = true ∧ call.update.id = row.1 ∨
          call.progress = .pointed (some row.1)))
  named : ∀ update ∈ world.accepted,
    (∃ id, world.pointer update = some id ∧ update.count ≤ id.count) ∨
      ∃ task call, world.calls.lookup task = some call ∧
        call.progress.isOpen = true ∧ call.update = update

section

omit [LinearOrder Kind]

theorem lt_cases [LinearOrder Kind] {lesser greater : DataId Place Kind}
    (less : lesser < greater) :
    lesser.place < greater.place ∨
      lesser.place = greater.place ∧ lesser.count ≤ greater.count := by
  refine (Prod.Lex.lt_iff.mp less).imp id (And.imp_right fun later => ?_)
  exact (Prod.Lex.lt_iff.mp later).elim le_of_lt (fun both => both.1.le)

theorem isBelow_eq_true {place : Place} {first : Nat}
    {id : DataId Place Kind} : isBelow place first id = true ↔
      id.place < place ∨ id.place = place ∧ id.count < first := by
  simp [isBelow]

theorem isBelow_of_place {place : Place} {first : Nat}
    {id : DataId Place Kind} (same : id.place = place) :
    isBelow place first id = false ↔ first ≤ id.count := by
  rw [Bool.eq_false_iff, Ne, isBelow_eq_true, same, not_or]
  simp

end

theorem changedRows_eq_filter (world : DataWorld Place Kind) (place : Place)
    (since upTo : Option Nat) :
    world.changedRows place since upTo =
      world.roomuserdataidAccountdata.rows.filter (fun row => !isBelow place
            (since.elim 0 (fun since => min (since + 1) u64Max)) row.1 &&
          (row.1.place = place &&
            upTo.all (fun upTo => row.1.count ≤ upTo))) := by
  unfold changedRows
  refine @scan_eq_filter _ _ _
    (isBelow place (since.elim 0 (fun since => min (since + 1) u64Max)))
    (fun id => id.place = place && upTo.all (fun upTo => id.count ≤ upTo))
    ?_ ?_ _ world.roomuserdataidAccountdata.sorted
  · intro lesser greater less below
    rw [isBelow_eq_true] at below ⊢
    rcases lt_cases less with earlier | ⟨same, fewer⟩
    · rcases below with lower | inside
      · exact .inl (earlier.trans lower)
      · exact .inl (inside.1 ▸ earlier)
    · rw [same]
      exact below.imp id (And.imp_right fewer.trans_lt)
  · intro lesser greater less above within
    rw [Bool.and_eq_true, decide_eq_true_eq] at within ⊢
    rcases lt_cases less with earlier | ⟨same, fewer⟩
    · rw [within.1] at earlier
      rw [Bool.eq_false_iff, Ne, isBelow_eq_true, not_or] at above
      exact absurd earlier above.1
    · refine ⟨same.trans within.1, ?_⟩
      cases upTo with
      | none => rfl
      | some bound =>
          have inside : greater.count ≤ bound := by simpa using within.2
          simpa using fewer.trans inside

theorem first_le {since : Option Nat} {count : Nat} (fits : count < u64Max) :
    since.elim 0 (fun since => min (since + 1) u64Max) ≤ count ↔
      since.all (fun since => since < count) = true := by
  cases since with
  | none => simp
  | some bound =>
      simp only [Option.elim_some, Option.all_some, decide_eq_true_eq]
      omega

section

variable {world : DataWorld Place Kind} {place : Place} {kind : Kind}

section

variable (inv : world.Inv) (idle : world.Idle place kind)
include inv idle

theorem Inv.onlyRow {row : DataId Place Kind × Json}
    (member : row ∈ world.roomuserdataidAccountdata)
    (isPlace : row.1.place = place) (isKind : row.1.kind = kind) :
    world.roomusertypeRoomuserdataid place kind = some row.1 := by
  obtain ⟨-, named | ⟨task, call, found, owner⟩⟩ := inv.rows row member
  · rw [← isPlace, ← isKind]
    exact named
  · exfalso
    rcases owner with own | removes
    · have same := own.2
      exact idle task call found ((congrArg DataId.place same).trans isPlace)
        ((congrArg DataId.kind same).trans isKind)
    · obtain ⟨-, older⟩ := (inv.calls task call found).pointed _ removes
      obtain ⟨samePlace, sameKind, -⟩ := older row.1 rfl
      exact idle task call found (samePlace.symm.trans isPlace)
        (sameKind.symm.trans isKind)

theorem Inv.named_of_idle {update : Update Place Kind}
    (accepted : update ∈ world.accepted) (isPlace : update.place = place)
    (isKind : update.kind = kind) :
    ∃ id, world.roomusertypeRoomuserdataid place kind = some id ∧
      update.count ≤ id.count := by
  rcases inv.named update accepted with named | running
  · rw [← isPlace, ← isKind]
    exact named
  · obtain ⟨task, call, found, -, rfl⟩ := running
    exact absurd isKind (idle task call found isPlace)

theorem Inv.oneRow {latest : Update Place Kind}
    (accepted : latest ∈ world.accepted) (isPlace : latest.place = place)
    (isKind : latest.kind = kind)
    (pointer : world.roomusertypeRoomuserdataid place kind = some latest.id)
    (stored : (latest.id, latest.data) ∈ world.roomuserdataidAccountdata) :
    world.OneRow place kind latest := by
  subst isPlace isKind
  have rows : ∀ row, row ∈ world.roomuserdataidAccountdata ∧
      row.1.place = latest.place ∧ row.1.kind = latest.kind ↔
      row = (latest.id, latest.data) := by
    intro row
    constructor
    · rintro ⟨member, samePlace, sameKind⟩
      have named := inv.onlyRow idle member samePlace sameKind
      rw [pointer] at named
      have same : latest.id = row.1 := Option.some.inj named
      refine Prod.ext same.symm (value_unique ?_ stored)
      rw [same]
      exact member
    · rintro rfl
      exact ⟨stored, rfl, rfl⟩
  refine ⟨rows, pointer, ?_, ?_⟩
  · rw [getRaw, pointer]
    exact get_eq_some.mpr stored
  · intro since upTo
    have fits : latest.count < u64Max := inv.bound latest accepted
    rw [changedRows_eq_filter, List.filter_filter]
    have bounds : ∀ row : DataId Place Kind × Json, row.1 = latest.id →
        (row.1.kind = latest.kind && (!isBelow latest.place
            (since.elim 0 (fun since => min (since + 1) u64Max)) row.1 &&
          (row.1.place = latest.place &&
            upTo.all (fun upTo => row.1.count ≤ upTo)))) =
          (since.all (fun since => since < latest.count) &&
            upTo.all (fun upTo => latest.count ≤ upTo)) := by
      rintro row same
      rw [same, Bool.eq_iff_iff]
      have first : isBelow latest.place
          (since.elim 0 (fun since => min (since + 1) u64Max)) latest.id =
            false ↔ since.all (fun since => since < latest.count) = true :=
        (isBelow_of_place rfl).trans (first_le fits)
      simp only [Bool.and_eq_true, Bool.not_eq_true', decide_eq_true_eq, first]
      exact ⟨fun all => ⟨all.2.1, all.2.2.2⟩,
        fun both => ⟨rfl, both.1, rfl, both.2⟩⟩
    have isLatest : ∀ row ∈ world.roomuserdataidAccountdata.rows,
        (row.1.kind = latest.kind && (!isBelow latest.place
            (since.elim 0 (fun since => min (since + 1) u64Max)) row.1 &&
          (row.1.place = latest.place &&
            upTo.all (fun upTo => row.1.count ≤ upTo)))) = true →
          row.1 = latest.id := by
      intro row member wanted
      simp only [Bool.and_eq_true, decide_eq_true_eq] at wanted
      have same := (rows row).mp ⟨member, wanted.2.2.1, wanted.1⟩
      rw [same]
    split
    next inside =>
      refine (List.filter_congr (fun row member => ?_)).trans
        (filter_key_eq world.roomuserdataidAccountdata.sorted stored)
      rw [Bool.eq_iff_iff, decide_eq_true_eq]
      exact ⟨isLatest row member, fun same => (bounds row same).trans inside⟩
    next outside =>
      refine List.filter_eq_nil_iff.mpr (fun row member wanted => ?_)
      have same := isLatest row member wanted
      rw [bounds row same] at wanted
      exact outside wanted

end

theorem Inv.tidy (inv : world.Inv) : world.Tidy := by
  rintro place kind idle ⟨update, accepted, isPlace, isKind⟩
  obtain ⟨id, pointer, -⟩ := inv.named_of_idle idle accepted isPlace isKind
  obtain ⟨⟨latest, isAccepted, rfl, latestPlace, latestKind, stored⟩, -⟩ :=
    inv.pointer place kind id pointer
  refine ⟨latest, isAccepted, latestPlace, latestKind, ?_,
    inv.oneRow idle isAccepted latestPlace latestKind pointer stored⟩
  intro other otherAccepted otherPlace otherKind
  obtain ⟨named, otherPointer, older⟩ :=
    inv.named_of_idle idle otherAccepted otherPlace otherKind
  rw [pointer] at otherPointer
  cases otherPointer
  exact older

end

end DataWorld

end ArcanaServer.AccountData
