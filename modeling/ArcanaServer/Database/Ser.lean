import ArcanaServer.Database.Bytes

namespace ArcanaServer.Database

open Library
open Sending (Byte separator)
open List

/-! Tuples as keys: one record after the other, with separators between. -/

inductive Failure where
  | panic (message : String)
  | serdeDe (message : String)
  | invalidLength (length : Nat)
  deriving DecidableEq, Repr

inductive Component where
  | str (text : String)
  | u64 (value : UInt64)
  | i64 (value : Int64)
  | option (value : Option String)
  | bytes (value : Key)
  deriving DecidableEq

inductive Value where
  | component (component : Component)
  | interfix
  | separator
  deriving DecidableEq

structure Serializer where
  out : Key
  depth : Nat
  sep : Bool
  fin : Bool

abbrev Serializing := EStateM Failure Serializer

/-- An assertion that only debug builds check. -/
def debugAssert {σ : Type} (debug condition : Bool) (message : String) :
    EStateM Failure σ Unit :=
  refuseIf (debug && !condition) (.panic message)

namespace Serializer

variable (debug : Bool)

def write (buf : Key) : Serializing Unit :=
  modify fun serializer => { serializer with out := serializer.out ++ buf }

/-- The depth is counted in debug builds only. -/
def deepen (serializer : Serializer) : Serializer :=
  { serializer with
    depth := if debug then serializer.depth + 1 else serializer.depth }

def rise (serializer : Serializer) : Serializer :=
  { serializer with
    depth := if debug then serializer.depth - 1 else serializer.depth }

def sequenceStart : Serializing Unit := do
  debugAssert debug (!(← get).fin) "Sequence start with finalization set"
  modify (deepen debug)

def sequenceEnd : Serializing Unit := modify (rise debug)

def tupleStart : Serializing Unit := do
  debugAssert debug (!(← get).sep) "Tuple start with separator set"
  sequenceStart debug

def tupleEnd : Serializing Unit := sequenceEnd debug

def writeSeparator : Serializing Unit := do
  debugAssert debug (!(← get).fin)
    "Writing a separator after serialization finalized"
  write [separator]

def recordStart : Serializing Unit := do
  debugAssert debug (!(← get).fin)
    "Starting a record after serialization finalized"
  let started ← modifyGet fun serializer =>
    (serializer.sep, { serializer with sep := true })
  if started then writeSeparator debug

def setFinalized : Serializing Unit := do
  debugAssert debug (!(← get).fin) "Finalization already set"
  modify fun serializer => { serializer with fin := debug }

def serializeBytes (buf : Key) : Serializing Unit := do
  debugAssert debug (decide (0 < (← get).depth)) ("serializing byte array at " ++
    "the top-level; you can skip serialization instead")
  write buf

def serializeStr (text : String) : Serializing Unit := do
  debugAssert debug (decide (0 < (← get).depth)) ("serializing string at the " ++
    "top-level; you can skip serialization instead")
  serializeBytes debug (strBytes text)

def serializeSlice (buf : Key) : Serializing Unit := do
  sequenceStart debug
  buf.forM fun byte => write [byte]
  sequenceEnd debug

def serializeComponent : Component → Serializing Unit
  | .str text => serializeStr debug text
  | .u64 value => write (u64Bytes value)
  | .i64 value => write (i64Bytes value)
  | .option none => pure ()
  | .option (some text) => serializeStr debug text
  | .bytes value => serializeSlice debug value

def serialize : Value → Serializing Unit
  | .component component => serializeComponent debug component
  | .interfix => setFinalized debug
  | .separator => writeSeparator debug

def serializeElement (value : Value) : Serializing Unit := do
  recordStart debug
  serialize debug value

def serializeTuple (values : List Value) : Serializing Unit := do
  tupleStart debug
  values.forM (serializeElement debug)
  tupleEnd debug

end Serializer

def serializeToVec (debug : Bool) (values : List Value) : Except Failure Key :=
  match Serializer.serializeTuple debug values
      { out := [], depth := 0, sep := false, fin := false } with
  | .ok () serializer =>
      if debug && decide (serializer.depth ≠ 0) then
        .error (.panic "Serialization completed at non-zero recursion level")
      else .ok serializer.out
  | .error failure _ => .error failure

def Component.content : Component → Key
  | .str text => strBytes text
  | .u64 value => u64Bytes value
  | .i64 value => i64Bytes value
  | .option none => []
  | .option (some text) => strBytes text
  | .bytes value => value

def trailing (components : List Component) : Key :=
  components.flatMap fun component => separator :: component.content

def joined : List Component → Key
  | [] => []
  | component :: rest => component.content ++ trailing rest

namespace Serializer

variable {debug : Bool} {serializer : Serializer} {components : List Component}

/-- The assertions on the inside of a tuple hold. -/
structure Inside (serializer : Serializer) (debug : Bool) : Prop where
  fin : serializer.fin = false
  depth : debug = true → 0 < serializer.depth

def wrote (serializer : Serializer) (buf : Key) : Serializer :=
  { serializer with out := serializer.out ++ buf }

theorem Inside.wrote (inside : Inside serializer debug) (buf : Key) :
    Inside (serializer.wrote buf) debug :=
  ⟨inside.fin, inside.depth⟩

theorem debugAssert_of {σ : Type} {condition : Bool} {message : String}
    (holds : debug = true → condition = true) (state : σ) :
    debugAssert debug condition message state = .ok () state := by
  unfold debugAssert refuseIf
  cases debug with
  | false => rfl
  | true =>
      rw [holds rfl]
      rfl

theorem serializeStr_inside (inside : Inside serializer debug)
    (text : String) : serializeStr debug text serializer =
      .ok () (serializer.wrote (strBytes text)) := by
  have deep : debug = true → decide (0 < serializer.depth) = true :=
    fun isDebug => decide_eq_true (inside.depth isDebug)
  unfold serializeStr
  rw [get_bind, bind_of_ok _ (debugAssert_of deep serializer)]
  unfold serializeBytes
  rw [get_bind, bind_of_ok _ (debugAssert_of deep serializer)]
  rfl

theorem forM_write (buf : Key) (serializer : Serializer) :
    buf.forM (fun byte => write [byte]) serializer =
      .ok () (serializer.wrote buf) := by
  induction buf generalizing serializer with
  | nil =>
      unfold wrote
      rw [append_nil]
      rfl
  | cons byte rest inductionHypothesis =>
      have first : write [byte] serializer =
          .ok () (serializer.wrote [byte]) := rfl
      rw [forM_cons, bind_of_ok _ first, inductionHypothesis]
      unfold wrote
      rw [append_assoc, singleton_append]

theorem sequenceStart_open (open_ : serializer.fin = false) :
    sequenceStart debug serializer = .ok () (serializer.deepen debug) := by
  have holds : debug = true → (!serializer.fin) = true := by
    intro _
    rw [open_]
    rfl
  unfold sequenceStart
  rw [get_bind, bind_of_ok _ (debugAssert_of holds serializer)]
  rfl

theorem rise_deepen_wrote (buf : Key) :
    ((serializer.deepen debug).wrote buf).rise debug =
      serializer.wrote buf := by
  cases debug <;> rfl

section

variable (inside : Inside serializer debug)
include inside

theorem serializeSlice_inside (buf : Key) :
    serializeSlice debug buf serializer = .ok () (serializer.wrote buf) := by
  unfold serializeSlice
  rw [bind_of_ok _ (sequenceStart_open inside.fin),
    bind_of_ok _ (forM_write buf _)]
  exact congrArg (EStateM.Result.ok ()) (rise_deepen_wrote buf)

theorem serialize_inside (component : Component) :
    serialize debug (.component component) serializer =
      .ok () (serializer.wrote component.content) := by
  cases component with
  | str text => exact serializeStr_inside inside text
  | u64 value | i64 value => rfl
  | option value =>
      cases value with
      | none =>
          unfold wrote
          rw [Component.content, append_nil]
          rfl
      | some text => exact serializeStr_inside inside text
  | bytes value => exact serializeSlice_inside inside value

theorem recordStart_inside : recordStart debug serializer =
      .ok () { serializer.wrote (if serializer.sep then [separator] else [])
        with sep := true } := by
  have holds : debug = true → (!serializer.fin) = true := by
    intro _
    rw [inside.fin]
    rfl
  unfold recordStart
  rw [get_bind, bind_of_ok _ (debugAssert_of holds serializer)]
  have exchanged : (modifyGet fun serializer : Serializer =>
      (serializer.sep, { serializer with sep := true }) :
      Serializing Bool) serializer =
        .ok serializer.sep { serializer with sep := true } := rfl
  rw [bind_of_ok _ exchanged]
  cases serializer.sep with
  | false =>
      unfold wrote
      simp only [Bool.false_eq_true, if_false, append_nil]
      rfl
  | true =>
      rw [if_pos rfl]
      unfold writeSeparator
      rw [get_bind, bind_of_ok _ (debugAssert_of holds _)]
      rfl

theorem elements_inside (started : serializer.sep = true) :
    (components.map Value.component).forM (serializeElement debug) serializer =
      .ok () (serializer.wrote (trailing components)) := by
  induction components generalizing serializer with
  | nil =>
      unfold wrote trailing
      rw [flatMap_nil, append_nil]
      rfl
  | cons component rest inductionHypothesis =>
      have starts : serializeElement debug (.component component) serializer =
          .ok () (serializer.wrote (separator :: component.content)) := by
        unfold serializeElement
        rw [bind_of_ok _ (recordStart_inside inside), if_pos started]
        have within : Inside { serializer.wrote [separator] with sep := true }
            debug := ⟨inside.fin, inside.depth⟩
        rw [serialize_inside within component]
        unfold wrote
        rw [← started, append_assoc, singleton_append]
      rw [map_cons, forM_cons, bind_of_ok _ starts,
        inductionHypothesis (inside.wrote _) started]
      unfold wrote trailing
      rw [flatMap_cons, append_assoc]

end

def entered (debug : Bool) : Serializer :=
  deepen debug { out := [], depth := 0, sep := false, fin := false }

theorem entered_inside : Inside (entered debug) debug :=
  ⟨rfl, fun isDebug => by rw [isDebug]; decide⟩

theorem tuple_entered (components : List Component) :
    (components.map Value.component).forM (serializeElement debug)
        (entered debug) =
      .ok () { (entered debug).wrote (joined components) with
        sep := !components.isEmpty } := by
  cases components with
  | nil => rfl
  | cons component rest =>
      have starts : serializeElement debug (.component component)
          (entered debug) =
          .ok () { (entered debug).wrote component.content with
            sep := true } := by
        unfold serializeElement
        rw [bind_of_ok _ (recordStart_inside entered_inside)]
        have within : Inside { (entered debug).wrote [] with sep := true }
            debug := ⟨rfl, entered_inside.depth⟩
        exact serialize_inside within component
      have within : Inside { (entered debug).wrote component.content with
          sep := true } debug := ⟨rfl, entered_inside.depth⟩
      rw [map_cons, forM_cons, bind_of_ok _ starts, elements_inside within rfl]
      rfl

theorem serializeTuple_entered (values : List Value) (last : Serializer)
    (elements : values.forM (serializeElement debug) (entered debug) =
      .ok () last) :
    serializeTuple debug values
      { out := [], depth := 0, sep := false, fin := false } =
        .ok () (last.rise debug) := by
  have starts : tupleStart debug
      { out := [], depth := 0, sep := false, fin := false } =
        .ok () (entered debug) := by
    cases debug <;> rfl
  unfold serializeTuple
  rw [bind_of_ok _ starts, bind_of_ok _ elements]
  rfl

end Serializer

theorem serializeToVec_of_entered {debug : Bool} {values : List Value}
    {last : Serializer}
    (elements : values.forM (Serializer.serializeElement debug)
      (Serializer.entered debug) = .ok () last)
    (depth : last.depth = (Serializer.entered debug).depth) :
    serializeToVec debug values = .ok last.out := by
  have ended : (last.rise debug).depth = 0 := by
    change (if debug then last.depth - 1 else last.depth) = 0
    rw [depth]
    cases debug <;> rfl
  unfold serializeToVec
  rw [Serializer.serializeTuple_entered values last elements]
  simp only
  rw [ended]
  cases debug <;> rfl

theorem serializeToVec_components (debug : Bool) (components : List Component) :
    serializeToVec debug (components.map .component) =
      .ok (joined components) :=
  serializeToVec_of_entered (Serializer.tuple_entered components) rfl

def interfixed (components : List Component) : Key :=
  joined components ++ if components.isEmpty then [] else [separator]

theorem serializeToVec_interfix (debug : Bool) (components : List Component) :
    serializeToVec debug (components.map .component ++ [.interfix]) =
      .ok (interfixed components) := by
  have within : Serializer.Inside
      { (Serializer.entered debug).wrote (joined components) with
        sep := !components.isEmpty } debug :=
    ⟨rfl, Serializer.entered_inside.depth⟩
  have ends : Serializer.serializeElement debug .interfix
      { (Serializer.entered debug).wrote (joined components) with
        sep := !components.isEmpty } =
      .ok () { (Serializer.entered debug).wrote (interfixed components) with
        sep := true
        fin := debug } := by
    unfold Serializer.serializeElement
    rw [bind_of_ok _ (Serializer.recordStart_inside within)]
    unfold Serializer.wrote interfixed
    cases components with
    | nil | cons component rest => cases debug <;> rfl
  have elements : (components.map Value.component ++ [Value.interfix]).forM
      (Serializer.serializeElement debug) (Serializer.entered debug) =
      .ok () { (Serializer.entered debug).wrote (interfixed components) with
        sep := true
        fin := debug } := by
    have parts : (components.map Value.component ++ [Value.interfix]).forM
        (Serializer.serializeElement debug) = (do
          (components.map Value.component).forM
            (Serializer.serializeElement debug)
          [Value.interfix].forM (Serializer.serializeElement debug)) :=
      forM_append
    rw [parts, bind_of_ok _ (Serializer.tuple_entered components), forM_cons,
      bind_of_ok _ ends]
    rfl
  exact serializeToVec_of_entered elements rfl

end ArcanaServer.Database
