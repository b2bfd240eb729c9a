import ArcanaServer.Database.Ser

namespace ArcanaServer.Database

open Library
open Sending (Byte separator)

/-- The types of the components that keys are read at. -/
inductive Kind where
  | str
  | u64
  | i64
  | option
  | bytes
  | ignore
  | ignoreAll
  deriving DecidableEq, Repr

/-- What is read.  An ignored record leaves nothing. -/
inductive Item where
  | component (component : Component)
  | ignored
  deriving DecidableEq

structure Deserializer where
  pos : Nat
  record : Nat
  seq : Bool

abbrev Deserializing := EStateM Failure Deserializer

namespace Deserializer

variable (debug : Bool) (buf : Key)

def remaining (deserializer : Deserializer) : Key := buf.drop deserializer.pos

def finished (deserializer : Deserializer) : Bool :=
  decide (deserializer.remaining buf = []) ||
    decide (deserializer.remaining buf = [separator])

def sequenceStart : Deserializing Unit := do
  debugAssert debug (!(← get).seq)
    "Nested sequences are not handled at this time"
  modify fun deserializer => { deserializer with seq := true }

def incPos (count : Nat) : Deserializing Unit := do
  modify fun deserializer =>
    { deserializer with pos := deserializer.pos + count }
  debugAssert debug (decide ((← get).pos ≤ buf.length)) "pos out of range"

def incRec (count : Nat) : Deserializing Unit :=
  modify fun deserializer =>
    { deserializer with record := deserializer.record + count }

/-- The slice from the position on. -/
def unparsed : Deserializing Key := do
  let deserializer ← get
  if buf.length < deserializer.pos then
    throw (.panic "range start index out of range for slice")
  return deserializer.remaining buf

def recordNext : Deserializing Key := do
  let record := (← unparsed buf).takeWhile (· ≠ separator)
  incPos debug buf record.length
  return record

def recordTrail : Deserializing Key := do
  let record ← unparsed buf
  incPos debug buf record.length
  return record

def recordIgnore : Deserializing Unit := do
  if (← get).seq then let _ ← recordNext debug buf
  else let _ ← recordTrail debug buf

def recordStart : Deserializing Unit := do
  let deserializer ← get
  let started := deserializer.pos ≠ 0 ∨ 0 < deserializer.record
  debugAssert debug
    (decide (¬ started ∨ (deserializer.remaining buf).head? = some separator))
    "Missing expected record separator at current position"
  incPos debug buf (if started then 1 else 0)
  incRec 1

def deserializeInt (underflow : String) : Deserializing Key := do
  let bytes := (← unparsed buf).take 8
  if bytes.length ≠ 8 then throw (.serdeDe underflow)
  incPos debug buf 8
  return bytes

def deserializeStr : Deserializing String := do
  match stringFromBytes (← recordNext debug buf) with
  | some text => return text
  | none => throw (.serdeDe "invalid utf-8 sequence")

def deserializeOption : Deserializing (Option String) := do
  match ((← get).remaining buf).head? with
  | none => return none
  | some byte =>
      if byte = separator then return none
      else return some (← deserializeStr debug buf)

def deserialize : Kind → Deserializing Item
  | .str => do return .component (.str (← deserializeStr debug buf))
  | .u64 => do
      let bytes ← deserializeInt debug buf "u64 buffer underflow"
      return .component (.u64 (u64FromBytes bytes))
  | .i64 => do
      let bytes ← deserializeInt debug buf "i64 buffer underflow"
      return .component (.i64 (i64FromBytes bytes))
  | .option => do
      return .component (.option (← deserializeOption debug buf))
  | .bytes => do return .component (.bytes (← recordTrail debug buf))
  | .ignore => do
      recordIgnore debug buf
      return .ignored
  | .ignoreAll => do
      let _ ← recordTrail debug buf
      return .ignored

/-- There is no element where the bytes are used up. -/
def nextElement (kind : Kind) : Deserializing (Option Item) := do
  if buf.length ≤ (← get).pos then return none
  recordStart debug buf
  return some (← deserialize debug buf kind)

/-- The elements of a tuple.  `read` counts those that were read before. -/
def visitSeq : (read : Nat) → List Kind → Deserializing (List Item)
  | _, [] => return []
  | read, kind :: rest => do
      match ← nextElement debug buf kind with
      | none => throw (.invalidLength read)
      | some item => return item :: (← visitSeq (read + 1) rest)

def deserializeTuple (kinds : List Kind) : Deserializing (List Item) := do
  sequenceStart debug
  visitSeq debug buf 0 kinds

end Deserializer

def fromSlice (debug : Bool) (kinds : List Kind) (buf : Key) :
    Except Failure (List Item) :=
  match Deserializer.deserializeTuple debug buf kinds
      { pos := 0, record := 0, seq := false } with
  | .ok items deserializer =>
      if debug && !deserializer.finished buf then
        .error (.panic "deserialization failed to consume trailing bytes")
      else .ok items
  | .error failure _ => .error failure

namespace Deserializer

section

variable {buf : Key} {deserializer : Deserializer}

/-- The position stays inside the buffer, and a failure is no panic. -/
abbrev Safe {α : Type} (buf : Key)
    (result : EStateM.Result Failure Deserializer α) : Prop :=
  Meets (fun _ after => after.pos ≤ buf.length)
    (fun failure after => after.pos ≤ buf.length ∧
      ∀ message, failure ≠ .panic message) result

theorem unparsed_of (inside : deserializer.pos ≤ buf.length) :
    unparsed buf deserializer =
      .ok (deserializer.remaining buf) deserializer := by
  unfold unparsed
  rw [get_bind, if_neg (Nat.not_lt.mpr inside)]
  rfl

theorem length_remaining :
    (deserializer.remaining buf).length = buf.length - deserializer.pos :=
  List.length_drop

theorem incPos_safe {count : Nat}
    (within : deserializer.pos + count ≤ buf.length) :
    Safe buf (incPos false buf count deserializer) := within

theorem recordNext_safe (inside : deserializer.pos ≤ buf.length) :
    Safe buf (recordNext false buf deserializer) := by
  unfold recordNext
  rw [bind_of_ok _ (unparsed_of inside)]
  refine (incPos_safe ?_).bind fun _ _ within => within
  have shorter := ((deserializer.remaining buf).takeWhile_sublist
    (· ≠ separator)).length_le
  rw [length_remaining] at shorter
  omega

theorem recordTrail_safe (inside : deserializer.pos ≤ buf.length) :
    Safe buf (recordTrail false buf deserializer) := by
  unfold recordTrail
  rw [bind_of_ok _ (unparsed_of inside)]
  refine (incPos_safe ?_).bind fun _ _ within => within
  rw [length_remaining]
  omega

theorem recordStart_safe (more : deserializer.pos < buf.length) :
    Safe buf (recordStart false buf deserializer) := by
  unfold recordStart
  rw [get_bind]
  change Safe buf ((incPos false buf _ >>= fun _ => incRec 1) deserializer)
  refine (incPos_safe ?_).bind fun _ _ within => within
  split <;> omega

theorem deserializeInt_safe {underflow : String}
    (inside : deserializer.pos ≤ buf.length) :
    Safe buf (deserializeInt false buf underflow deserializer) := by
  unfold deserializeInt
  rw [bind_of_ok _ (unparsed_of inside)]
  by_cases short : ((deserializer.remaining buf).take 8).length ≠ 8
  · rw [if_pos short]
    exact ⟨inside, fun _ same => by cases same⟩
  · rw [if_neg short]
    refine (incPos_safe ?_).bind fun _ _ within => within
    rw [List.length_take, length_remaining] at short
    omega

theorem deserializeStr_safe (inside : deserializer.pos ≤ buf.length) :
    Safe buf (deserializeStr false buf deserializer) := by
  refine (recordNext_safe inside).bind fun record after within => ?_
  cases stringFromBytes record with
  | none => exact ⟨within, fun _ same => by cases same⟩
  | some text => exact within

theorem deserializeOption_safe (inside : deserializer.pos ≤ buf.length) :
    Safe buf (deserializeOption false buf deserializer) := by
  unfold deserializeOption
  rw [get_bind]
  cases (deserializer.remaining buf).head? with
  | none => exact inside
  | some byte =>
      by_cases absent : byte = separator
      · simp only [absent, if_true]
        exact inside
      · simp only [absent, if_false]
        exact (deserializeStr_safe inside).bind fun _ _ within => within

theorem deserialize_safe (kind : Kind)
    (inside : deserializer.pos ≤ buf.length) :
    Safe buf (deserialize false buf kind deserializer) := by
  cases kind with
  | str => exact (deserializeStr_safe inside).bind fun _ _ within => within
  | u64 | i64 =>
      exact (deserializeInt_safe inside).bind fun _ _ within => within
  | option =>
      exact (deserializeOption_safe inside).bind fun _ _ within => within
  | bytes | ignoreAll =>
      exact (recordTrail_safe inside).bind fun _ _ within => within
  | ignore =>
      refine Meets.bind ?_ fun _ _ within => within
      unfold recordIgnore
      rw [get_bind]
      split
      · exact (recordNext_safe inside).bind fun _ _ within => within
      · exact (recordTrail_safe inside).bind fun _ _ within => within

theorem nextElement_safe (kind : Kind)
    (inside : deserializer.pos ≤ buf.length) :
    Safe buf (nextElement false buf kind deserializer) := by
  unfold nextElement
  rw [get_bind]
  split
  · exact inside
  next more =>
    refine (recordStart_safe (Nat.not_le.mp more)).bind fun _ _ begun => ?_
    exact (deserialize_safe kind begun).bind fun _ _ within => within

theorem visitSeq_safe (kinds : List Kind) (read : Nat)
    (inside : deserializer.pos ≤ buf.length) :
    Safe buf (visitSeq false buf read kinds deserializer) := by
  induction kinds generalizing deserializer read with
  | nil => exact inside
  | cons kind rest ih =>
      refine (nextElement_safe kind inside).bind fun found after within => ?_
      cases found with
      | none => exact ⟨within, fun _ same => by cases same⟩
      | some item => exact (ih (read + 1) within).bind fun _ _ later => later

end

end Deserializer

/-- In bounds behind each element, and where the row is refused. -/
theorem fromSlice_inBounds (kinds : List Kind) (buf : Key) :
    (∀ message, fromSlice false kinds buf ≠ .error (.panic message)) ∧
      ∀ read, read <+: kinds → Meets (fun _ after => after.pos ≤ buf.length)
          (fun _ after => after.pos ≤ buf.length)
          (Deserializer.deserializeTuple false buf read
            { pos := 0, record := 0, seq := false }) := by
  have safe : ∀ read, Deserializer.Safe buf
      (Deserializer.deserializeTuple false buf read
        { pos := 0, record := 0, seq := false }) :=
    fun read => Deserializer.visitSeq_safe read 0 (Nat.zero_le _)
  refine ⟨fun message => ?_, fun read _ =>
    (safe read).mono (fun _ _ within => within) fun _ _ failed => failed.1⟩
  have whole := safe kinds
  unfold fromSlice
  cases result : Deserializer.deserializeTuple false buf kinds
      { pos := 0, record := 0, seq := false } with
  | ok items after =>
      intro same
      cases same
  | error failure after =>
      rw [result] at whole
      intro same
      exact whole.2 message (Except.error.inj same)

end ArcanaServer.Database
