import ArcanaServer.Database.De

namespace ArcanaServer.Database

open Library Component
open Sending (Byte separator)
open List

/-! What is read from a key is what it was made of. -/

namespace Component

def kind : Component → Kind
  | .str _ => .str
  | .u64 _ => .u64
  | .i64 _ => .i64
  | .option _ => .option
  | .bytes _ => .bytes

def Fits : Component → Prop
  | .option (some text) => text ≠ ""
  | .option none | .str _ | .u64 _ | .i64 _ | .bytes _ => True

/-- Raw bytes may hold separators, so only the end of a key delimits them. -/
def Raw : Component → Prop
  | .bytes _ => True
  | .str _ | .u64 _ | .i64 _ | .option _ => False

instance : (component : Component) → Decidable component.Fits
  | .option (some _) => inferInstanceAs (Decidable (¬ _))
  | .option none | .str _ | .u64 _ | .i64 _ | .bytes _ => isTrue trivial

instance : (component : Component) → Decidable component.Raw
  | .bytes _ => isTrue trivial
  | .str _ | .u64 _ | .i64 _ | .option _ => isFalse id

end Component

namespace Deserializer

variable {debug : Bool} {buf rest : Key} {begun : Nat}
  {deserializer : Deserializer}

/-- Inside a tuple: the records that were begun, and the bytes that are
left. -/
structure At (buf : Key) (begun : Nat) (deserializer : Deserializer)
    (rest : Key) : Prop where
  bytes : deserializer.remaining buf = rest
  inside : deserializer.pos ≤ buf.length
  record : deserializer.record = begun
  seq : deserializer.seq = true

def Ends (rest : Key) : Prop := rest = [] ∨ rest.head? = some separator

abbrev Never : Failure → Deserializer → Prop := fun _ _ => False

abbrev Gives {α : Type} (buf : Key) (begun : Nat) (value : α) (rest : Key)
    (result : EStateM.Result Failure Deserializer α) : Prop :=
  Meets (fun answer after => answer = value ∧ At buf begun after rest) Never
    result

theorem debugAssert_of {condition : Bool} {message : String}
    (holds : condition = true) (state : Deserializer) :
    debugAssert debug condition message state = .ok () state :=
  Serializer.debugAssert_of (fun _ => holds) state

theorem incPos_gives {front : Key}
    (located : At buf begun deserializer (front ++ rest)) :
    Gives buf begun () rest (incPos debug buf front.length deserializer) := by
  have later : ({ deserializer with
      pos := deserializer.pos + front.length } : Deserializer).remaining buf =
        rest := by
    unfold remaining
    rw [← drop_drop]
    change (deserializer.remaining buf).drop front.length = rest
    rw [located.bytes, drop_left]
  have inside : deserializer.pos + front.length ≤ buf.length := by
    have length := congrArg List.length located.bytes
    unfold remaining at length
    rw [length_drop, length_append] at length
    have within := located.inside
    omega
  have moves : (modify fun deserializer : Deserializer =>
      { deserializer with pos := deserializer.pos + front.length } :
      Deserializing Unit) deserializer =
        .ok () { deserializer with pos := deserializer.pos + front.length } :=
    rfl
  unfold incPos
  rw [bind_of_ok _ moves, get_bind, debugAssert_of (decide_eq_true inside)]
  exact ⟨rfl, later, inside, located.record, located.seq⟩

theorem takeWhile_append {text : Key} (clear : separator ∉ text)
    (ends : Ends rest) :
    (text ++ rest).takeWhile (fun byte => decide (byte ≠ separator)) =
      text := by
  have texts : ∀ byte ∈ text, decide (byte ≠ separator) = true := by
    intro byte member
    refine decide_eq_true ?_
    intro same
    exact clear (same ▸ member)
  rw [takeWhile_append_of_pos texts]
  rcases ends with none | starts
  · rw [none, takeWhile_nil, append_nil]
  · obtain ⟨later, isRest⟩ := head?_eq_some_iff.mp starts
    rw [isRest, takeWhile_cons_of_neg (by simp), append_nil]

theorem recordNext_gives {text : Key} (clear : separator ∉ text)
    (ends : Ends rest) (located : At buf begun deserializer (text ++ rest)) :
    Gives buf begun text rest (recordNext debug buf deserializer) := by
  unfold recordNext
  rw [bind_of_ok _ (unparsed_of located.inside), located.bytes,
    takeWhile_append clear ends]
  refine (incPos_gives located).bind ?_
  intro _ after moved
  exact ⟨rfl, moved.2⟩

theorem recordTrail_gives (located : At buf begun deserializer rest) :
    Gives buf begun rest [] (recordTrail debug buf deserializer) := by
  unfold recordTrail
  rw [bind_of_ok _ (unparsed_of located.inside), located.bytes]
  have whole : At buf begun deserializer (rest ++ []) := by
    rw [append_nil]
    exact located
  refine (incPos_gives whole).bind ?_
  intro _ after moved
  exact ⟨rfl, moved.2⟩

theorem deserializeStr_gives (text : String) (ends : Ends rest)
    (located : At buf begun deserializer (strBytes text ++ rest)) :
    Gives buf begun text rest (deserializeStr debug buf deserializer) := by
  unfold deserializeStr
  refine (recordNext_gives (separator_notMem_strBytes text) ends
    located).bind ?_
  intro record after read
  rw [read.1, stringFromBytes_strBytes]
  exact ⟨rfl, read.2⟩

theorem deserializeInt_gives {bytes : Key} {underflow : String}
    (eight : bytes.length = 8)
    (located : At buf begun deserializer (bytes ++ rest)) :
    Gives buf begun bytes rest
      (deserializeInt debug buf underflow deserializer) := by
  have taken : (bytes ++ rest).take 8 = bytes := by
    rw [← eight, take_left]
  unfold deserializeInt
  rw [bind_of_ok _ (unparsed_of located.inside), located.bytes, taken]
  simp only [eight, ne_eq, not_true_eq_false, if_false]
  rw [← eight]
  refine (incPos_gives located).bind ?_
  intro _ after moved
  exact ⟨rfl, moved.2⟩

theorem deserializeOption_gives {value : Option String}
    (fits : (option value).Fits) (ends : Ends rest)
    (located : At buf begun deserializer
      ((option value).content ++ rest)) :
    Gives buf begun value rest (deserializeOption debug buf deserializer) := by
  unfold deserializeOption
  rw [get_bind, located.bytes]
  cases value with
  | none =>
      rcases ends with none | starts
      · subst none
        exact ⟨rfl, located⟩
      · have head : ((option none).content ++ rest).head? =
            some separator := starts
        rw [head]
        simp only [if_true]
        exact ⟨rfl, located⟩
  | some text =>
      obtain ⟨byte, later, isText⟩ :=
        exists_cons_of_ne_nil (strBytes_ne_nil fits)
      have head : ((option (some text)).content ++ rest).head? =
          some byte := by
        change (strBytes text ++ rest).head? = some byte
        rw [isText]
        rfl
      have different : byte ≠ separator := by
        intro same
        refine separator_notMem_strBytes text ?_
        rw [isText, ← same]
        exact mem_cons_self
      rw [head]
      simp only [different, if_false]
      refine (deserializeStr_gives text ends located).bind ?_
      intro answer after read
      exact ⟨congrArg some read.1, read.2⟩

theorem deserialize_gives (component : Component) (fits : component.Fits)
    (ends : Ends rest) (raw : component.Raw → rest = [])
    (located : At buf begun deserializer (component.content ++ rest)) :
    Gives buf begun (.component component) rest
      (deserialize debug buf component.kind deserializer) := by
  cases component with
  | str text =>
      refine (deserializeStr_gives text ends located).bind ?_
      intro answer after read
      rw [read.1]
      exact ⟨rfl, read.2⟩
  | u64 value =>
      refine (deserializeInt_gives (u64Bytes_length value) located).bind ?_
      intro answer after read
      rw [read.1, u64FromBytes_u64Bytes]
      exact ⟨rfl, read.2⟩
  | i64 value =>
      refine (deserializeInt_gives (u64Bytes_length value.toUInt64)
        located).bind ?_
      intro answer after read
      rw [read.1]
      exact ⟨congrArg (fun value => Item.component (.i64 value))
        (i64FromBytes_i64Bytes value), read.2⟩
  | option value =>
      refine (deserializeOption_gives fits ends located).bind ?_
      intro answer after read
      rw [read.1]
      exact ⟨rfl, read.2⟩
  | bytes value =>
      have whole : At buf begun deserializer value := by
        rw [raw trivial] at located
        rw [← append_nil value]
        exact located
      refine (recordTrail_gives whole).bind ?_
      intro answer after read
      rw [read.1, raw trivial]
      exact ⟨rfl, read.2⟩

theorem recordIgnore_gives {text : Key} (clear : separator ∉ text)
    (ends : Ends rest) (located : At buf begun deserializer (text ++ rest)) :
    Gives buf begun () rest (recordIgnore debug buf deserializer) := by
  unfold recordIgnore
  rw [get_bind, located.seq, if_pos rfl]
  refine (recordNext_gives clear ends located).bind ?_
  intro record after read
  exact ⟨rfl, read.2⟩

end Deserializer

/-- A component with the type that it is read at. -/
structure Reading where
  kind : Kind
  component : Component

namespace Reading

def item (reading : Reading) : Item :=
  if reading.kind = .ignore then .ignored else .component reading.component

inductive Sound : Reading → Prop
  | same (component : Component) (fits : component.Fits) :
      Sound ⟨component.kind, component⟩
  | ignored (text : String) : Sound ⟨.ignore, .str text⟩

theorem item_same (component : Component) :
    item ⟨component.kind, component⟩ = .component component := by
  cases component <;> rfl

end Reading

namespace Deserializer

variable {debug : Bool} {buf rest : Key} {begun : Nat}
  {deserializer : Deserializer}

theorem reading_gives {reading : Reading} (sound : reading.Sound)
    (ends : Ends rest) (raw : reading.component.Raw → rest = [])
    (located : At buf begun deserializer (reading.component.content ++ rest)) :
    Gives buf begun reading.item rest
      (deserialize debug buf reading.kind deserializer) := by
  cases sound with
  | same component fits =>
      rw [Reading.item_same]
      exact deserialize_gives component fits ends raw located
  | ignored text =>
      refine (recordIgnore_gives (separator_notMem_strBytes text) ends
        located).bind ?_
      intro _ after read
      exact ⟨rfl, read.2⟩

theorem recordStart_gives (located : At buf begun deserializer
      ((if begun = 0 then [] else [separator]) ++ rest))
    (fresh : begun = 0 → deserializer.pos = 0) :
    Gives buf (begun + 1) () rest (recordStart debug buf deserializer) := by
  unfold recordStart
  rw [get_bind]
  have counted : ∀ {middle : Deserializer}, At buf begun middle rest →
      Gives buf (begun + 1) () rest (incRec 1 middle) := by
    intro middle at_
    exact ⟨rfl, at_.bytes, at_.inside, congrArg (· + 1) at_.record, at_.seq⟩
  by_cases first : begun = 0
  · have rested : ¬ (deserializer.pos ≠ 0 ∨ 0 < deserializer.record) := by
      rw [fresh first, located.record, first]
      simp
    rw [if_pos first] at located
    simp only [rested, not_false_eq_true, true_or, if_false]
    rw [bind_of_ok _ (debugAssert_of (decide_eq_true trivial) deserializer)]
    have stays : At buf begun deserializer ([] ++ rest) := located
    refine (incPos_gives stays).bind ?_
    intro _ middle moved
    exact counted moved.2
  · have started : deserializer.pos ≠ 0 ∨ 0 < deserializer.record := by
      rw [located.record]
      exact .inr (Nat.pos_of_ne_zero first)
    rw [if_neg first] at located
    have head : (deserializer.remaining buf).head? = some separator := by
      rw [located.bytes]
      rfl
    simp only [started, head, or_true, if_true]
    rw [bind_of_ok _ (debugAssert_of (decide_eq_true trivial) deserializer)]
    refine (incPos_gives located).bind ?_
    intro _ middle moved
    exact counted moved.2

theorem nextElement_gives {reading : Reading} (sound : reading.Sound)
    (ends : Ends rest) (raw : reading.component.Raw → rest = [])
    (fresh : begun = 0 → deserializer.pos = 0)
    (located : At buf begun deserializer
      ((if begun = 0 then [] else [separator]) ++
        (reading.component.content ++ rest)))
    (more : deserializer.remaining buf ≠ []) :
    Gives buf (begun + 1) (some reading.item) rest
      (nextElement debug buf reading.kind deserializer) := by
  have within : ¬ buf.length ≤ deserializer.pos := by
    intro past
    exact more (drop_eq_nil_of_le past)
  unfold nextElement
  rw [get_bind, if_neg within]
  refine (recordStart_gives located fresh).bind ?_
  intro _ middle begins
  refine (reading_gives sound ends raw begins.2).bind ?_
  intro item after read
  rw [read.1]
  exact ⟨rfl, read.2⟩

theorem ends_trailing (components : List Component) :
    Ends (trailing components) := by
  cases components with
  | nil => exact .inl rfl
  | cons component rest => exact .inr rfl

def Delimited (components : List Component) : Prop :=
  ∀ component ∈ components.dropLast, ¬ component.Raw

instance (components : List Component) : Decidable (Delimited components) :=
  inferInstanceAs (Decidable (∀ component ∈ components.dropLast, _))

section

variable {component : Component} {later : List Component}
  (delimited : Delimited (component :: later))
include delimited

theorem Delimited.head : component.Raw → trailing later = [] := by
  intro raw
  cases later with
  | nil => rfl
  | cons next others => exact absurd raw (delimited _ mem_cons_self)

theorem Delimited.tail : Delimited later := by
  intro other member
  cases later with
  | nil => cases member
  | cons next others =>
      exact delimited other (mem_cons_of_mem component member)

end

theorem visitSeq_gives (readings : List Reading) (read : Nat)
    (sound : ∀ reading ∈ readings, reading.Sound)
    (delimited : Delimited (readings.map Reading.component))
    (started : begun ≠ 0) (located : At buf begun deserializer
      (trailing (readings.map Reading.component))) :
    Gives buf (begun + readings.length) (readings.map Reading.item) []
      (visitSeq debug buf read (readings.map Reading.kind) deserializer) := by
  induction readings generalizing begun deserializer read with
  | nil => exact ⟨rfl, located⟩
  | cons reading later inductionHypothesis =>
      rw [map_cons] at delimited ⊢
      unfold visitSeq
      have placed : At buf begun deserializer
          ((if begun = 0 then [] else [separator]) ++
            (reading.component.content ++
              trailing (later.map Reading.component))) := by
        rw [if_neg started]
        exact located
      have more : deserializer.remaining buf ≠ [] := by
        rw [located.bytes]
        exact cons_ne_nil _ _
      refine (nextElement_gives (sound reading mem_cons_self)
        (ends_trailing _) delimited.head (fun none => absurd none started)
        placed more).bind ?_
      intro found middle next
      rw [next.1]
      have others := inductionHypothesis (read + 1)
        (fun other member => sound other (mem_cons_of_mem reading member))
        delimited.tail (Nat.succ_ne_zero begun) next.2
      refine others.bind ?_
      intro items after rest
      rw [rest.1]
      refine ⟨rfl, ?_⟩
      rw [length_cons, Nat.add_comm later.length, ← Nat.add_assoc]
      exact rest.2

theorem deserializeTuple_gives {readings : List Reading}
    (several : 2 ≤ readings.length)
    (sound : ∀ reading ∈ readings, reading.Sound)
    (delimited : Delimited (readings.map Reading.component)) :
    Gives (joined (readings.map Reading.component)) readings.length
      (readings.map Reading.item) []
      (deserializeTuple debug (joined (readings.map Reading.component))
        (readings.map Reading.kind)
        { pos := 0, record := 0, seq := false }) := by
  obtain ⟨first, rest, isFirst⟩ := exists_cons_of_length_pos
    (Nat.lt_of_lt_of_le Nat.zero_lt_two several)
  subst isFirst
  obtain ⟨second, others, isSecond⟩ := exists_cons_of_length_pos
    (Nat.lt_of_succ_le (Nat.le_of_succ_le_succ several))
  rw [map_cons] at delimited ⊢
  generalize whole : joined (first.component ::
    rest.map Reading.component) = buf
  have begins : sequenceStart debug { pos := 0, record := 0, seq := false } =
      .ok () { pos := 0, record := 0, seq := true } := by
    cases debug <;> rfl
  unfold deserializeTuple
  rw [bind_of_ok _ begins, map_cons]
  unfold visitSeq
  have placed : At buf 0 { pos := 0, record := 0, seq := true }
      ((if 0 = 0 then [] else [separator]) ++ (first.component.content ++
        trailing (rest.map Reading.component))) := by
    rw [← whole]
    exact ⟨rfl, Nat.zero_le _, rfl, rfl⟩
  have more : ({ pos := 0, record := 0, seq := true } :
      Deserializer).remaining buf ≠ [] := by
    rw [placed.bytes, isSecond]
    simp [trailing]
  refine (nextElement_gives (sound first mem_cons_self)
    (ends_trailing _) delimited.head (fun _ => rfl) placed more).bind ?_
  intro found middle next
  rw [next.1]
  have remaining : Gives _ _ _ _
      (visitSeq debug buf 1 (rest.map Reading.kind) middle) :=
    visitSeq_gives rest 1
      (fun other member => sound other (mem_cons_of_mem first member))
      delimited.tail (Nat.succ_ne_zero 0) next.2
  refine remaining.bind ?_
  intro items after read
  rw [read.1]
  refine ⟨rfl, ?_⟩
  rw [length_cons, Nat.add_comm rest.length]
  exact read.2

end Deserializer

theorem fromSlice_joined (debug : Bool) {readings : List Reading}
    (several : 2 ≤ readings.length)
    (sound : ∀ reading ∈ readings, reading.Sound)
    (delimited : Deserializer.Delimited (readings.map Reading.component)) :
    fromSlice debug (readings.map Reading.kind)
        (joined (readings.map Reading.component)) =
      .ok (readings.map Reading.item) := by
  have read : Deserializer.Gives _ _ _ _ (Deserializer.deserializeTuple debug
    (joined (readings.map Reading.component)) (readings.map Reading.kind)
    { pos := 0, record := 0, seq := false }) :=
    Deserializer.deserializeTuple_gives several sound delimited
  unfold fromSlice
  cases result : Deserializer.deserializeTuple debug
      (joined (readings.map Reading.component)) (readings.map Reading.kind)
      { pos := 0, record := 0, seq := false } with
  | error failure after =>
      rw [result] at read
      exact read.elim
  | ok items after =>
      rw [result] at read
      have finished : after.finished
          (joined (readings.map Reading.component)) = true := by
        unfold Deserializer.finished
        rw [read.2.bytes]
        rfl
      simp only [finished, Bool.not_true, Bool.and_false, Bool.false_eq_true,
        if_false]
      rw [read.1]

/-- Whether or not the build checks its assertions. -/
theorem fromSlice_serializeToVec (debug : Bool) (components : List Component)
    (several : 2 ≤ components.length)
    (fits : ∀ component ∈ components, component.Fits)
    (delimited : Deserializer.Delimited components) :
    ∃ buf, serializeToVec debug (components.map .component) = .ok buf ∧
      fromSlice debug (components.map kind) buf =
        .ok (components.map .component) := by
  refine ⟨joined components, serializeToVec_components debug components, ?_⟩
  let readings := components.map fun component =>
    Reading.mk component.kind component
  have parts : readings.map Reading.component = components := by
    rw [map_map]
    exact map_id components
  have kinds : readings.map Reading.kind = components.map kind := by
    rw [map_map]
    rfl
  have items : readings.map Reading.item =
      components.map Item.component := by
    rw [map_map]
    exact map_congr_left fun component _ => Reading.item_same component
  have sound : ∀ reading ∈ readings, reading.Sound := by
    intro reading member
    obtain ⟨component, inside, same⟩ := mem_map.mp member
    rw [← same]
    exact .same component (fits component inside)
  have many : 2 ≤ readings.length := by
    rw [length_map]
    exact several
  have ended : Deserializer.Delimited (readings.map Reading.component) := by
    rw [parts]
    exact delimited
  have read := fromSlice_joined debug many sound ended
  rw [parts, kinds, items] at read
  exact read

/-- An integer of separators behind an empty text. -/
theorem fromSlice_serializeToVec_separators :
    ∃ buf, serializeToVec true ([.str "", .u64 0xFFFFFFFFFFFFFFFF,
        .option none, .bytes [255]].map .component) = .ok buf ∧
      fromSlice true ([.str "", .u64 0xFFFFFFFFFFFFFFFF, .option none,
        .bytes [255]].map kind) buf =
          .ok ([.str "", .u64 0xFFFFFFFFFFFFFFFF, .option none,
            .bytes [255]].map .component) :=
  fromSlice_serializeToVec true _ (by decide) (by decide) (by decide)

end ArcanaServer.Database
