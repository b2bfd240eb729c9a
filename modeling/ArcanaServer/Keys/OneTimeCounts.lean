import ArcanaServer.Database.Prefixes
import ArcanaServer.Keys.Tables
import ArcanaServer.Library.EntryTable
import ArcanaServer.Library.JsonText
import ArcanaServer.Library.Trace
import Mathlib.Data.Finset.Card
import Mathlib.Data.Finset.Max
import Mathlib.Data.List.Induction
import Mathlib.Data.Set.List
import Mathlib.Tactic.Tauto

namespace ArcanaServer.Keys

open String
open Library Library.JsonText ArcanaServer.Matrix SortedTable OneTimeKeyId
open Database (Key textKey textKey_inj textKey_prefix_iff
  textKey_append strBytes strBytes_inj fromSlice fromSlice_textKey
  stringFromBytes stringFromBytes_strBytes separator_notMem_strBytes)
open Sending (separator)

namespace OneTimeKeyId

/-- The algorithm of a key id ends at its first colon. -/
def Valid (keyId : OneTimeKeyId) : Prop :=
  keyId.algorithm ≠ "" ∧ ':' ∉ keyId.algorithm.toList

instance (keyId : OneTimeKeyId) : Decidable keyId.Valid :=
  inferInstanceAs (Decidable (_ ∧ _))

def text (keyId : OneTimeKeyId) : List Char :=
  keyId.algorithm.toList ++ ':' :: keyId.name.toList

def parse (text : List Char) : Option { keyId : OneTimeKeyId // keyId.Valid } :=
  let algorithm := text.takeWhile (· ≠ ':')
  if ':' ∈ text then
    let keyId := mk (ofList algorithm)
      (ofList (text.drop (algorithm.length + 1)))
    if valid : keyId.Valid then some ⟨keyId, valid⟩ else none
  else none

theorem takeWhile_text {keyId : OneTimeKeyId} (valid : keyId.Valid) :
    keyId.text.takeWhile (· ≠ ':') = keyId.algorithm.toList := by
  have clear : ∀ char ∈ keyId.algorithm.toList,
      decide (char ≠ ':') = true := by
    intro char member
    exact decide_eq_true fun same => valid.2 (same ▸ member)
  unfold text
  rw [List.takeWhile_append_of_pos clear]
  exact List.append_nil _

theorem parse_text (keyId : { keyId : OneTimeKeyId // keyId.Valid }) :
    parse keyId.val.text = some keyId := by
  have colon : ':' ∈ keyId.val.text :=
    List.mem_append_right _ List.mem_cons_self
  have name : keyId.val.text.drop (keyId.val.algorithm.toList.length + 1) =
      keyId.val.name.toList := by
    unfold text
    rw [List.drop_append]
    simp
  unfold parse
  rw [if_pos colon]
  simp only [takeWhile_text keyId.property, name, ofList_toList]
  exact dif_pos keyId.property

end OneTimeKeyId

abbrev OwnedKeyId := { keyId : OneTimeKeyId // keyId.Valid }

abbrev OwnedRow := UserId × DeviceId × OwnedKeyId

def oneTimeKey (row : OwnedRow) : Key :=
  textKey [row.1, row.2.1, ofList (quoted row.2.2.val.text)]

def algorithmPrefix (userId : UserId) (deviceId : DeviceId)
    (keyAlgorithm : String) : Key :=
  textKey [userId, deviceId,
    ofList ('"' :: keyAlgorithm.toList ++ [':'])]

theorem oneTimeKey_injective : Function.Injective oneTimeKey := by
  intro first second same
  have texts : [first.1, first.2.1,
      ofList (quoted first.2.2.val.text)] = [second.1, second.2.1,
      ofList (quoted second.2.2.val.text)] := textKey_inj rfl same
  obtain ⟨users, later⟩ := List.cons.inj texts
  obtain ⟨devices, last⟩ := List.cons.inj later
  have quotes := ofList_injective (List.cons.inj last).1
  have read := congrArg unquoted quotes
  rw [unquoted_quoted, unquoted_quoted] at read
  have parsed := congrArg parse (Option.some.inj read)
  rw [parse_text, parse_text] at parsed
  exact Prod.ext users (Prod.ext devices (Option.some.inj parsed))

def lastPart (key : Key) : Key :=
  (key.reverse.takeWhile (· ≠ separator)).reverse

theorem lastPart_textKey (userId : UserId) (deviceId : DeviceId)
    (text : String) :
    lastPart (textKey [userId, deviceId, text]) = strBytes text := by
  have parts : textKey [userId, deviceId, text] =
      (strBytes userId ++ separator :: strBytes deviceId) ++
        separator :: strBytes text := by
    simp [textKey, Database.joined, Database.trailing,
      Database.Component.content]
  have clear : ∀ byte ∈ (strBytes text).reverse,
      decide (byte ≠ separator) = true := by
    intro byte member
    refine decide_eq_true fun same => ?_
    exact separator_notMem_strBytes text (same ▸ List.mem_reverse.mp member)
  unfold lastPart
  rw [parts, List.reverse_append, List.reverse_cons, List.append_assoc,
    List.takeWhile_append_of_pos clear]
  simp

def readKeyId (key : Key) : Option OwnedKeyId := do
  let text ← stringFromBytes (lastPart key)
  let keyId ← unquoted text.toList
  parse keyId

theorem readKeyId_oneTimeKey (row : OwnedRow) :
    readKeyId (oneTimeKey row) = some row.2.2 := by
  unfold readKeyId oneTimeKey
  rw [lastPart_textKey, stringFromBytes_strBytes]
  simp only [Option.bind_eq_bind, Option.bind_some, toList_ofList,
    unquoted_quoted]
  exact parse_text row.2.2

/-- What `Unquoted` leaves of a text that begins and ends with quotes. -/
def unquoteInfallible (text : List Char) : List Char :=
  let started := if text.head? = some '"' then text.tail else text
  if started.getLast? = some '"' then started.dropLast else text

theorem unquoteInfallible_quoted (text : List Char) :
    unquoteInfallible (quoted text) = escaped text := by
  unfold unquoteInfallible quoted
  simp

structure OneTimeStore where
  counter : Nat
  userdeviceidMetadata : UserId → List (DeviceId × Device)
  onetimekeyidOnetimekeys : SortedTable Key Json
  useridLastonetimekeyupdate : UserId → Option Nat

inductive OneTimeCall where
  | addOneTimeKey (userId : UserId) (deviceId : DeviceId)
      (oneTimeKeyKey : OwnedKeyId) (oneTimeKeyValue : Json)
  | takeOneTimeKey (userId : UserId) (deviceId : DeviceId)
      (keyAlgorithm : String)

inductive OneTimeAnswer where
  | added
  | taken (keyId : OwnedKeyId) (value : Json)
  | refused (error : Error)
  | panicked (message : String)

/-- The greatest number of `js_int::UInt`. -/
def uintMax : Nat := 2 ^ 53 - 1

def countKey (counts : EntryTable String Nat) (algorithm : String) :
    EntryTable String Nat :=
  counts.insert algorithm (min ((counts.lookup algorithm).getD 0 + 1) uintMax)

namespace OneTimeStore

def start (counter : Nat)
    (metadata : UserId → List (DeviceId × Device)) : OneTimeStore where
  counter
  userdeviceidMetadata := metadata
  onetimekeyidOnetimekeys := .empty
  useridLastonetimekeyupdate := fun _ => none

section

variable (store : OneTimeStore) (userId : UserId) (deviceId : DeviceId)

def nextCount : Nat :=
  nextCounter store.counter

def updated : OneTimeStore :=
  { store with
    counter := store.nextCount
    useridLastonetimekeyupdate := Function.update
      store.useridLastonetimekeyupdate userId (some store.nextCount) }

def addOneTimeKey (oneTimeKeyKey : OwnedKeyId) (oneTimeKeyValue : Json) :
    OneTimeStore × OneTimeAnswer :=
  if ((store.userdeviceidMetadata userId).lookup deviceId).isNone then
    (store, .refused
      (.database "User does not exist or device has no metadata."))
  else
    ({ store with
      onetimekeyidOnetimekeys := store.onetimekeyidOnetimekeys.put
        (oneTimeKey (userId, deviceId, oneTimeKeyKey)) oneTimeKeyValue
      : OneTimeStore }.updated userId, .added)

def takeOneTimeKey (keyAlgorithm : String) : OneTimeStore × OneTimeAnswer :=
  let store := store.updated userId
  match (store.onetimekeyidOnetimekeys.scanPrefix
      (algorithmPrefix userId deviceId keyAlgorithm)).head? with
  | none => (store, .refused (.notFound "No one-time-key found"))
  | some row =>
      let store := { store with
        onetimekeyidOnetimekeys := store.onetimekeyidOnetimekeys.erase row.1 }
      match readKeyId row.1 with
      | some keyId => (store, .taken keyId row.2)
      | none => (store, .panicked "OneTimeKeyId in db is invalid.")

def readUnquoted (debug : Bool) (key : Key) : Option (List Char) :=
  match fromSlice debug [.ignore, .ignore, .str] key with
  | .ok [_, _, .component (.str text)] =>
      if text.toList.head? = some '"' ∧ text.toList.getLast? = some '"' then
        some (unquoteInfallible text.toList)
      else none
  | _ => none

/-- The prefix does not end with a separator, and a key id that cannot be read
is a panic. -/
def countOneTimeKeys (debug : Bool) : Option (EntryTable String Nat) := do
  let rows := store.onetimekeyidOnetimekeys.scanPrefix
    (textKey [userId, deviceId])
  let keyIds ← (rows.filterMap (readUnquoted debug ·.1)).mapM parse
  return (keyIds.map (·.val.algorithm)).foldl countKey ∅

def step : OneTimeCall → OneTimeStore × OneTimeAnswer
  | .addOneTimeKey userId deviceId oneTimeKeyKey oneTimeKeyValue =>
      store.addOneTimeKey userId deviceId oneTimeKeyKey oneTimeKeyValue
  | .takeOneTimeKey userId deviceId keyAlgorithm =>
      store.takeOneTimeKey userId deviceId keyAlgorithm

end

end OneTimeStore

abbrev Remaining := Finset OwnedRow

namespace Remaining

def after (remaining : Remaining) : OneTimeCall → OneTimeAnswer → Remaining
  | .addOneTimeKey userId deviceId keyId _, .added =>
      insert (userId, deviceId, keyId) remaining
  | .takeOneTimeKey userId deviceId _, .taken keyId _ =>
      remaining.erase (userId, deviceId, keyId)
  | _, _ => remaining

def ofHistory (history : List (Entry OneTimeStore OneTimeCall OneTimeAnswer)) :
    Remaining :=
  history.foldl (fun remaining entry =>
    remaining.after entry.input entry.output) ∅

def number (remaining : Remaining) (userId : UserId) (deviceId : DeviceId)
    (algorithm : String) : Nat :=
  (remaining.filter fun row => row.1 = userId ∧ row.2.1 = deviceId ∧
    row.2.2.val.algorithm = algorithm).card

end Remaining

namespace OneTimeStore

def Represents (store : OneTimeStore) (remaining : Remaining) : Prop :=
  ∀ key, store.onetimekeyidOnetimekeys.hasKey key ↔
    ∃ row ∈ remaining, oneTimeKey row = key

section

variable {store : OneTimeStore} {remaining : Remaining} {userId : UserId}
  {deviceId : DeviceId}

theorem Represents.put (represents : store.Represents remaining)
    (row : OwnedRow) (value : Json) (key : Key) :
    (store.onetimekeyidOnetimekeys.put (oneTimeKey row) value).hasKey key ↔
      ∃ other ∈ insert row remaining, oneTimeKey other = key := by
  constructor
  · intro stored
    obtain ⟨held, member⟩ := stored
    rcases mem_put.mp member with new | old
    · exact ⟨row, Finset.mem_insert_self row remaining,
        (congrArg Prod.fst new).symm⟩
    · obtain ⟨other, remains, isKey⟩ := (represents key).mp ⟨held, old.1⟩
      exact ⟨other, Finset.mem_insert_of_mem remains, isKey⟩
  · intro named
    obtain ⟨other, member, isKey⟩ := named
    by_cases same : key = oneTimeKey row
    · exact ⟨value, mem_put.mpr (.inl (Prod.ext same rfl))⟩
    · have older : other ∈ remaining := by
        refine Finset.mem_of_mem_insert_of_ne member ?_
        intro equal
        exact same (equal ▸ isKey.symm)
      obtain ⟨held, stored⟩ := (represents key).mpr ⟨other, older, isKey⟩
      exact ⟨held, mem_put.mpr (.inr ⟨stored, same⟩)⟩

theorem Represents.erase (represents : store.Represents remaining)
    (row : OwnedRow) (key : Key) :
    (store.onetimekeyidOnetimekeys.erase (oneTimeKey row)).hasKey key ↔
      ∃ other ∈ remaining.erase row, oneTimeKey other = key := by
  constructor
  · intro stored
    obtain ⟨held, member⟩ := stored
    obtain ⟨older, differs⟩ := mem_erase.mp member
    obtain ⟨other, remains, isKey⟩ := (represents key).mp ⟨held, older⟩
    refine ⟨other, Finset.mem_erase.mpr ⟨?_, remains⟩, isKey⟩
    intro equal
    exact differs (equal ▸ isKey.symm)
  · intro named
    obtain ⟨other, member, isKey⟩ := named
    obtain ⟨apart, remains⟩ := Finset.mem_erase.mp member
    obtain ⟨held, stored⟩ := (represents key).mpr ⟨other, remains, isKey⟩
    refine ⟨held, mem_erase.mpr ⟨stored, ?_⟩⟩
    intro same
    exact apart (oneTimeKey_injective (isKey.trans same))

variable {keyAlgorithm : String}

theorem algorithmPrefix_device {row : OwnedRow}
    (starts : algorithmPrefix userId deviceId keyAlgorithm <+:
      oneTimeKey row) : row.1 = userId ∧ row.2.1 = deviceId := by
  have lengths : [userId, deviceId].length = [row.1, row.2.1].length := rfl
  have parts := (textKey_prefix_iff lengths).mp starts
  obtain ⟨users, later⟩ := List.cons.inj parts.1
  exact ⟨users.symm, (List.cons.inj later).1.symm⟩

theorem takeOneTimeKey_of_none
    (none_ : (store.onetimekeyidOnetimekeys.scanPrefix
      (algorithmPrefix userId deviceId keyAlgorithm)).head? = none) :
    store.takeOneTimeKey userId deviceId keyAlgorithm = (store.updated userId,
        .refused (.notFound "No one-time-key found")) := by
  have found : ((store.updated userId).onetimekeyidOnetimekeys.scanPrefix
      (algorithmPrefix userId deviceId keyAlgorithm)).head? = none := none_
  unfold takeOneTimeKey
  simp only [found]

theorem takeOneTimeKey_of_some {row : OwnedRow} {value : Json}
    (some_ : (store.onetimekeyidOnetimekeys.scanPrefix
      (algorithmPrefix userId deviceId keyAlgorithm)).head? =
        some (oneTimeKey row, value)) :
    store.takeOneTimeKey userId deviceId keyAlgorithm =
      ({ store.updated userId with
        onetimekeyidOnetimekeys :=
          store.onetimekeyidOnetimekeys.erase (oneTimeKey row) },
        .taken row.2.2 value) := by
  have found : ((store.updated userId).onetimekeyidOnetimekeys.scanPrefix
      (algorithmPrefix userId deviceId keyAlgorithm)).head? =
        some (oneTimeKey row, value) := some_
  unfold takeOneTimeKey
  simp only [found, readKeyId_oneTimeKey]
  rfl

theorem Represents.take (represents : store.Represents remaining)
    (keyAlgorithm : String) :
    (store.takeOneTimeKey userId deviceId keyAlgorithm).1.Represents
      (remaining.after (.takeOneTimeKey userId deviceId keyAlgorithm)
        (store.takeOneTimeKey userId deviceId keyAlgorithm).2) := by
  cases found : (store.onetimekeyidOnetimekeys.scanPrefix
      (algorithmPrefix userId deviceId keyAlgorithm)).head? with
  | none =>
      rw [takeOneTimeKey_of_none found]
      exact represents
  | some row =>
      obtain ⟨key, value⟩ := row
      obtain ⟨member, starts⟩ :=
        mem_scanPrefix.mp (List.mem_of_mem_head? found)
      obtain ⟨named, remains, isKey⟩ := (represents key).mp ⟨value, member⟩
      rw [← isKey] at starts found
      obtain ⟨users, devices⟩ := algorithmPrefix_device starts
      have whole : named = (userId, deviceId, named.2.2) :=
        Prod.ext users (Prod.ext devices rfl)
      rw [takeOneTimeKey_of_some found]
      change Represents _ (Finset.erase remaining (userId, deviceId, named.2.2))
      rw [← whole]
      exact represents.erase named

theorem Represents.step (represents : store.Represents remaining)
    (call : OneTimeCall) : (store.step call).1.Represents
      (remaining.after call (store.step call).2) := by
  cases call with
  | addOneTimeKey userId deviceId oneTimeKeyKey oneTimeKeyValue =>
      change Represents (store.addOneTimeKey userId deviceId oneTimeKeyKey
        oneTimeKeyValue).1 (remaining.after _ (store.addOneTimeKey userId
          deviceId oneTimeKeyKey oneTimeKeyValue).2)
      unfold addOneTimeKey
      split
      · exact represents
      · exact represents.put (userId, deviceId, oneTimeKeyKey) oneTimeKeyValue
  | takeOneTimeKey userId deviceId keyAlgorithm =>
      exact represents.take keyAlgorithm

theorem represents_of_reaches {counter : Nat}
    {metadata : UserId → List (DeviceId × Device)}
    {history : List (Entry OneTimeStore OneTimeCall OneTimeAnswer)}
    (reached : Reaches step (start counter metadata) history store) :
    store.Represents (Remaining.ofHistory history) := by
  induction reached with
  | start =>
      intro key
      refine iff_of_false ?_ ?_
      · intro stored
        obtain ⟨held, member⟩ := stored
        exact not_mem_empty member
      · intro named
        obtain ⟨row, remains, _⟩ := named
        exact absurd remains (Finset.notMem_empty row)
  | next call earlier ih =>
      unfold Remaining.ofHistory
      rw [List.foldl_append]
      exact ih.step call

end

def escapedId (keyId : OwnedKeyId) : OwnedKeyId where
  val := ⟨ofList (escaped keyId.val.algorithm.toList),
    ofList (escaped keyId.val.name.toList)⟩
  property := by
    refine ⟨?_, ?_⟩
    · intro empty
      have nothing := congrArg toList empty
      rw [toList_ofList] at nothing
      have length := length_le_escaped keyId.val.algorithm.toList
      rw [nothing] at length
      have none_ := List.length_eq_zero_iff.mp (Nat.le_zero.mp length)
      exact keyId.property.1 (toList_inj.mp none_)
    · dsimp only
      rw [toList_ofList, colon_mem_escaped]
      exact keyId.property.2

theorem escapedId_text (keyId : OwnedKeyId) :
    (escapedId keyId).val.text = escaped keyId.val.text := by
  unfold text
  rw [escaped_append, escaped_cons]
  change (ofList _).toList ++ ':' :: (ofList _).toList = _
  rw [toList_ofList, toList_ofList]
  rfl

def escapedAlgorithm (row : OwnedRow) : String :=
  (escapedId row.2.2).val.algorithm

theorem readUnquoted_oneTimeKey (debug : Bool) (row : OwnedRow) :
    readUnquoted debug (oneTimeKey row) =
      some (escapedId row.2.2).val.text := by
  have read : fromSlice debug [.ignore, .ignore, .str] (oneTimeKey row) =
      .ok [.ignored, .ignored,
        .component (.str (ofList (quoted row.2.2.val.text)))] :=
    fromSlice_textKey debug [(.ignore, row.1), (.ignore, row.2.1),
      (.str, ofList (quoted row.2.2.val.text))] (by simp) (by simp)
  have quotes : (quoted row.2.2.val.text).head? = some '"' ∧
      (quoted row.2.2.val.text).getLast? = some '"' := by
    refine ⟨rfl, ?_⟩
    change ('"' :: escaped _ ++ ['"']).getLast? = _
    exact List.getLast?_concat
  unfold readUnquoted
  rw [read]
  dsimp only
  rw [toList_ofList, if_pos quotes, unquoteInfallible_quoted,
    escapedId_text]

theorem lookup_countKeys (algorithms : List String) (algorithm : String) :
    ((algorithms.foldl countKey ∅).lookup algorithm).getD 0 =
      min (algorithms.count algorithm) uintMax := by
  induction algorithms using List.reverseRecOn with
  | nil => rfl
  | append_singleton earlier last ih =>
      rw [List.foldl_append, List.count_append]
      change ((countKey (earlier.foldl countKey ∅) last).lookup
        algorithm).getD 0 = _
      generalize earlier.foldl countKey ∅ = counts at ih ⊢
      unfold countKey
      rw [EntryTable.lookup_insert]
      split
      next same =>
        rw [same] at ih ⊢
        rw [Option.getD_some, ih, List.count_singleton_self]
        omega
      next differs =>
        rw [ih, List.count_singleton, if_neg]
        · rfl
        · exact fun same => differs (beq_iff_eq.mp same).symm

def found (remaining : Remaining) (userId : UserId) (deviceId : DeviceId)
    (algorithm : String) : Nat :=
  (remaining.filter fun row => row.1 = userId ∧
    strBytes deviceId <+: strBytes row.2.1 ∧
    escapedAlgorithm row = algorithm).card

section

variable {store : OneTimeStore} {remaining : Remaining}

theorem textKey_prefix_oneTimeKey {userId : UserId} {deviceId : DeviceId}
    {row : OwnedRow} :
    textKey [userId, deviceId] <+: oneTimeKey row ↔
      row.1 = userId ∧ strBytes deviceId <+: strBytes row.2.1 := by
  have lengths : [userId].length = [row.1].length := rfl
  have parts : textKey ([userId] ++ [deviceId]) <+: textKey ([row.1] ++
      row.2.1 :: [ofList (quoted row.2.2.val.text)]) ↔ _ :=
    textKey_prefix_iff lengths
  refine parts.trans (and_congr_left' ?_)
  rw [List.cons.injEq, eq_comm]
  exact and_iff_left rfl

theorem exists_named (represents : store.Represents remaining)
    (userId : UserId) (deviceId : DeviceId) :
    ∃ named : List OwnedRow, named.Nodup ∧
      (store.onetimekeyidOnetimekeys.scanPrefix
        (textKey [userId, deviceId])).map Prod.fst = named.map oneTimeKey ∧
      ∀ row, row ∈ named ↔ row ∈ remaining ∧ row.1 = userId ∧
        strBytes deviceId <+: strBytes row.2.1 := by
  let rows := store.onetimekeyidOnetimekeys.scanPrefix
    (textKey [userId, deviceId])
  have member : ∀ key, key ∈ rows.map Prod.fst ↔
      (∃ row ∈ remaining, oneTimeKey row = key) ∧
        textKey [userId, deviceId] <+: key := by
    intro key
    rw [← represents key, List.mem_map]
    constructor
    · intro scanned
      obtain ⟨row, inside, isKey⟩ := scanned
      obtain ⟨stored, starts⟩ := mem_scanPrefix.mp inside
      rw [← isKey]
      exact ⟨⟨row.2, stored⟩, starts⟩
    · intro stored
      obtain ⟨⟨value, inside⟩, starts⟩ := stored
      exact ⟨(key, value), mem_scanPrefix.mpr ⟨inside, starts⟩, rfl⟩
  have distinct : (rows.map Prod.fst).Nodup := by
    unfold rows scanPrefix
    rw [scanRows_eq_filter _ _ store.onetimekeyidOnetimekeys.sorted]
    have sorted := store.onetimekeyidOnetimekeys.sorted.filter
      fun row => (textKey [userId, deviceId]).isPrefixOf row.1
    rw [List.Nodup, List.pairwise_map]
    exact sorted.imp fun less => ne_of_lt less
  have ranged : rows.map Prod.fst ∈ Set.range (List.map oneTimeKey) := by
    rw [Set.range_list_map]
    intro key inside
    obtain ⟨⟨row, _, isKey⟩, _⟩ := (member key).mp inside
    exact ⟨row, isKey⟩
  obtain ⟨named, isNamed⟩ := ranged
  refine ⟨named, ?_, isNamed.symm, ?_⟩
  · rw [← isNamed] at distinct
    exact distinct.of_map _
  · intro row
    have keyed : row ∈ named ↔ oneTimeKey row ∈ rows.map Prod.fst := by
      rw [← isNamed, List.mem_map_of_injective oneTimeKey_injective]
    rw [keyed, member, textKey_prefix_oneTimeKey]
    refine and_congr_left' ?_
    constructor
    · intro named
      obtain ⟨other, remains, same⟩ := named
      exact oneTimeKey_injective same ▸ remains
    · intro remains
      exact ⟨row, remains, rfl⟩

theorem mapM_parse (named : List OwnedRow) :
    (named.map fun row => (escapedId row.2.2).val.text).mapM
        parse =
      some (named.map fun row => escapedId row.2.2) := by
  induction named with
  | nil => rfl
  | cons row rest ih =>
      rw [List.map_cons, List.mapM_cons, parse_text, ih]
      rfl

/-- The count never fails, and gives what the scan finds, up to the greatest
number there is. -/
theorem countOneTimeKeys_spec (represents : store.Represents remaining)
    (debug : Bool) (userId : UserId) (deviceId : DeviceId) :
    ∃ counts, store.countOneTimeKeys userId deviceId debug = some counts ∧
      ∀ algorithm, (counts.lookup algorithm).getD 0 =
        min (found remaining userId deviceId algorithm) uintMax := by
  obtain ⟨named, distinct, keys, member⟩ :=
    exists_named represents userId deviceId
  have texts : (store.onetimekeyidOnetimekeys.scanPrefix
      (textKey [userId, deviceId])).filterMap (readUnquoted debug ·.1) =
        named.map fun row => (escapedId row.2.2).val.text := by
    have apart : (store.onetimekeyidOnetimekeys.scanPrefix
        (textKey [userId, deviceId])).filterMap (readUnquoted debug ·.1) =
          ((store.onetimekeyidOnetimekeys.scanPrefix
            (textKey [userId, deviceId])).map Prod.fst).filterMap
              (readUnquoted debug) := by
      rw [List.filterMap_map]
      rfl
    rw [apart, keys, List.filterMap_map]
    have read : readUnquoted debug ∘ oneTimeKey =
        some ∘ fun row => (escapedId row.2.2).val.text := by
      funext row
      exact readUnquoted_oneTimeKey debug row
    rw [read, List.filterMap_eq_map]
  refine ⟨(named.map escapedAlgorithm).foldl countKey ∅, ?_, ?_⟩
  · unfold countOneTimeKeys
    dsimp only
    rw [texts, mapM_parse]
    simp only [Option.bind_eq_bind, Option.bind_some, Option.pure_def,
      List.map_map]
    rfl
  · intro algorithm
    rw [lookup_countKeys]
    congr 1
    have counted : (named.map escapedAlgorithm).count algorithm =
        (named.filter fun row => escapedAlgorithm row = algorithm).length := by
      rw [List.count, List.countP_map, List.countP_eq_length_filter]
      refine congrArg List.length (List.filter_congr fun row _ => ?_)
      exact Bool.eq_iff_iff.mpr (by simp)
    rw [counted, ← List.toFinset_card_of_nodup (distinct.filter _)]
    unfold found
    congr 1
    ext row
    simp only [List.mem_toFinset, List.mem_filter, Finset.mem_filter, member,
      decide_eq_true_eq]
    tauto

def CountsExactly (store : OneTimeStore) (debug : Bool) (userId : UserId)
    (deviceId : DeviceId) (remaining : Remaining) : Prop :=
  ∃ counts, store.countOneTimeKeys userId deviceId debug = some counts ∧
    ∀ algorithm, (counts.lookup algorithm).getD 0 =
      remaining.number userId deviceId algorithm

end

end OneTimeStore

namespace Remaining

open OneTimeStore (escapedAlgorithm escapedId found)

/-- No algorithm of the device's keys has characters to escape, none has more
keys than a count can tell, and a device whose id goes on after the given one
has keys only of algorithms at that greatest count. -/
structure Countable (remaining : Remaining) (userId : UserId)
    (deviceId : DeviceId) : Prop where
  plain : ∀ keyId, (userId, deviceId, keyId) ∈ remaining →
    escaped keyId.val.algorithm.toList = keyId.val.algorithm.toList
  bounded : ∀ algorithm, remaining.number userId deviceId algorithm ≤ uintMax
  apart : ∀ other keyId, (userId, other, keyId) ∈ remaining →
    other ≠ deviceId → strBytes deviceId <+: strBytes other →
      remaining.number userId deviceId
        (ofList (escaped keyId.val.algorithm.toList)) = uintMax

variable {remaining : Remaining} {userId : UserId} {deviceId : DeviceId}

theorem escapedAlgorithm_eq_iff {row : OwnedRow} :
    escapedAlgorithm row = row.2.2.val.algorithm ↔
      escaped row.2.2.val.algorithm.toList = row.2.2.val.algorithm.toList := by
  rw [← toList_inj]
  change (ofList _).toList = _ ↔ _
  rw [toList_ofList]

/-- If the counts are right, no key has an algorithm to escape: the longest
such algorithm would be counted under a longer one. -/
theorem plain_of_counts (counts : ∀ algorithm,
      min (found remaining userId deviceId algorithm) uintMax =
        remaining.number userId deviceId algorithm) :
    ∀ keyId, (userId, deviceId, keyId) ∈ remaining →
      escaped keyId.val.algorithm.toList = keyId.val.algorithm.toList := by
  let changed := remaining.filter fun row => row.1 = userId ∧
    row.2.1 = deviceId ∧ escaped row.2.2.val.algorithm.toList ≠
      row.2.2.val.algorithm.toList
  intro keyId remains
  by_contra changes
  have nonempty : changed.Nonempty := ⟨(userId, deviceId, keyId),
      Finset.mem_filter.mpr ⟨remains, rfl, rfl, changes⟩⟩
  obtain ⟨longest, member, most⟩ := changed.exists_max_image
    (fun row => row.2.2.val.algorithm.toList.length) nonempty
  obtain ⟨inside, users, devices, longestChanges⟩ := Finset.mem_filter.mp member
  obtain ⟨later, longer⟩ := escaped_escaped_ne longestChanges
  have counted : 1 ≤ found remaining userId deviceId
      (escapedAlgorithm longest) := by
    refine Finset.card_pos.mpr ⟨longest, Finset.mem_filter.mpr ⟨inside, users,
      ?_, rfl⟩⟩
    rw [devices]
  have numbered : 0 < remaining.number userId deviceId
      (escapedAlgorithm longest) := by
    rw [← counts]
    exact Nat.lt_min.mpr ⟨counted, by decide⟩
  obtain ⟨next, nextMember⟩ := Finset.card_pos.mp numbered
  obtain ⟨nextInside, nextUser, nextDevice, nextAlgorithm⟩ :=
    Finset.mem_filter.mp nextMember
  have text : next.2.2.val.algorithm.toList =
      escaped longest.2.2.val.algorithm.toList := by
    rw [nextAlgorithm]
    exact toList_ofList
  have nextChanged : next ∈ changed := by
    refine Finset.mem_filter.mpr ⟨nextInside, nextUser, nextDevice, ?_⟩
    rw [text]
    exact later
  have bound := most next nextChanged
  rw [text] at bound
  exact Nat.not_lt.mpr bound longer

theorem number_le_found
    (plain : ∀ keyId, (userId, deviceId, keyId) ∈ remaining →
      escaped keyId.val.algorithm.toList = keyId.val.algorithm.toList)
    (algorithm : String) :
    remaining.filter (fun row => row.1 = userId ∧ row.2.1 = deviceId ∧
        row.2.2.val.algorithm = algorithm) ⊆
      remaining.filter fun row => row.1 = userId ∧
        strBytes deviceId <+: strBytes row.2.1 ∧
          escapedAlgorithm row = algorithm := by
  intro row member
  obtain ⟨inside, users, devices, same⟩ := Finset.mem_filter.mp member
  have whole : row = (userId, deviceId, row.2.2) :=
    Prod.ext users (Prod.ext devices rfl)
  have isPlain := escapedAlgorithm_eq_iff.mpr (plain row.2.2 (whole ▸ inside))
  refine Finset.mem_filter.mpr ⟨inside, users, ?_, isPlain.trans same⟩
  rw [devices]

theorem counts_iff_countable :
    (∀ algorithm, min (found remaining userId deviceId algorithm) uintMax =
      remaining.number userId deviceId algorithm) ↔
        remaining.Countable userId deviceId := by
  constructor
  · intro counts
    have plain := plain_of_counts counts
    refine ⟨plain, ?_, ?_⟩
    · intro algorithm
      rw [← counts algorithm]
      exact Nat.min_le_right _ _
    · intro other keyId remains differs starts
      have more : remaining.number userId deviceId
          (escapedAlgorithm (userId, other, keyId)) <
            found remaining userId deviceId
              (escapedAlgorithm (userId, other, keyId)) := by
        refine Finset.card_lt_card ((Finset.ssubset_iff_of_subset
          (number_le_found plain _)).mpr ⟨(userId, other, keyId),
            Finset.mem_filter.mpr ⟨remains, rfl, starts, rfl⟩, ?_⟩)
        intro own
        exact differs (Finset.mem_filter.mp own).2.2.1
      have same := counts (escapedAlgorithm (userId, other, keyId))
      change remaining.number userId deviceId
        (escapedAlgorithm (userId, other, keyId)) = uintMax
      omega
  · intro countable algorithm
    have atLeast := Finset.card_le_card
      (number_le_found countable.plain algorithm)
    have bound := countable.bounded algorithm
    by_cases full : remaining.number userId deviceId algorithm = uintMax
    · unfold found
      unfold number at full ⊢
      omega
    · have same : found remaining userId deviceId algorithm =
          remaining.number userId deviceId algorithm := by
        refine Nat.le_antisymm (Finset.card_le_card ?_) atLeast
        intro row member
        obtain ⟨inside, users, starts, isAlgorithm⟩ :=
          Finset.mem_filter.mp member
        have devices : row.2.1 = deviceId := by
          by_contra differs
          have whole : row = (userId, row.2.1, row.2.2) := Prod.ext users rfl
          refine full (Eq.trans ?_ (countable.apart row.2.1 row.2.2
            (whole ▸ inside) differs starts))
          rw [← isAlgorithm]
          rfl
        have whole : row = (userId, deviceId, row.2.2) :=
          Prod.ext users (Prod.ext devices rfl)
        have isPlain := escapedAlgorithm_eq_iff.mpr
          (countable.plain row.2.2 (whole ▸ inside))
        exact Finset.mem_filter.mpr
          ⟨inside, users, devices, isPlain.symm.trans isAlgorithm⟩
      rw [same]
      exact Nat.min_eq_left bound

end Remaining

namespace OneTimeStore

theorem Represents.countsExactly_iff {store : OneTimeStore}
    {remaining : Remaining} (represents : store.Represents remaining)
    (debug : Bool) (userId : UserId) (deviceId : DeviceId) :
    store.CountsExactly debug userId deviceId remaining ↔
      remaining.Countable userId deviceId := by
  obtain ⟨counts, given, told⟩ :=
    countOneTimeKeys_spec represents debug userId deviceId
  rw [← Remaining.counts_iff_countable]
  constructor
  · intro counted algorithm
    obtain ⟨others, same, exact_⟩ := counted
    rw [given] at same
    rw [← told, ← exact_, Option.some.inj same]
  · intro numbers
    exact ⟨counts, given, fun algorithm =>
      (told algorithm).trans (numbers algorithm)⟩

/-- After every sequence of uploads and claims the counts of a device are the
numbers of its keys just where no key of a longer named device and no escape
comes between. -/
theorem countOneTimeKeys_exact_iff (debug : Bool) (counter : Nat)
    (metadata : UserId → List (DeviceId × Device))
    (calls : List OneTimeCall) (userId : UserId) (deviceId : DeviceId) :
    (run step (start counter metadata) calls).2.CountsExactly debug userId
        deviceId (Remaining.ofHistory
          (run step (start counter metadata) calls).1) ↔
      (Remaining.ofHistory
        (run step (start counter metadata) calls).1).Countable userId
          deviceId :=
  (represents_of_reaches (reaches_run step _ calls)).countsExactly_iff debug
    userId deviceId

def twoDevices : UserId → List (DeviceId × Device) := fun _ =>
  [("AB", ⟨"AB", none⟩), ("ABC", ⟨"ABC", none⟩)]

def curveKey : OwnedKeyId := ⟨⟨"signed_curve25519", "AAAA"⟩, by decide⟩

def longerUpload : List OneTimeCall :=
  [.addOneTimeKey "@alice:here" "ABC" curveKey .null]

theorem longerUpload_counted :
    ¬ (run step (start 0 twoDevices) longerUpload).2.CountsExactly false
      "@alice:here" "AB" (Remaining.ofHistory
        (run step (start 0 twoDevices) longerUpload).1) := by
  rw [(represents_of_reaches
    (reaches_run step _ longerUpload)).countsExactly_iff]
  have remains : Remaining.ofHistory
      (run step (start 0 twoDevices) longerUpload).1 =
        {("@alice:here", "ABC", curveKey)} := rfl
  rw [remains]
  intro countable
  have full := countable.apart "ABC" curveKey (Finset.mem_singleton_self _)
    (by decide) (by decide)
  have few := Finset.card_filter_le ({("@alice:here", "ABC", curveKey)} :
    Finset OwnedRow) fun row => row.1 = "@alice:here" ∧ row.2.1 = "AB" ∧
      row.2.2.val.algorithm =
        ofList (escaped curveKey.val.algorithm.toList)
  rw [Finset.card_singleton] at few
  unfold Remaining.number at full
  rw [full] at few
  exact absurd few (by decide)

end OneTimeStore

end ArcanaServer.Keys
