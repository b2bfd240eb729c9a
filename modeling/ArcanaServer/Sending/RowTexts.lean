import ArcanaServer.Database.Bytes
import ArcanaServer.Library.Settles
import ArcanaServer.Sending.QueueInv

namespace ArcanaServer.Sending

open Library Utf8
open Database (strBytes stringFromBytes)
open List SortedTable

/-! Rows as the texts that they are made of, and the errors of reading them. -/

/-- Which texts are names of servers and ids of users.  A server name starts
with neither of the sigils. -/
structure Names where
  isServerName : String → Bool
  isUserId : String → Bool
  noSigil : ∀ text, isServerName text = true →
    (strBytes text).head? ≠ some appserviceSigil ∧
      (strBytes text).head? ≠ some pushSigil

def plainNames : Names where
  isServerName text := decide ((strBytes text).head? ≠ some appserviceSigil ∧
    (strBytes text).head? ≠ some pushSigil)
  isUserId _ := true
  noSigil _ := of_decide_eq_true

variable {names : Names}

inductive Recipient (names : Names) where
  | appservice (id : String)
  | push (userId : { text : String // names.isUserId text = true })
      (pushkey : String)
  | federation (server : { text : String // names.isServerName text = true })
  deriving DecidableEq

def Recipient.destination : Recipient names → Destination
  | .appservice id => .appservice (ofString id)
  | .push userId pushkey =>
      .push (ofString userId.1) (ofString pushkey)
  | .federation server =>
      .federation ⟨ofString server.1, names.noSigil server.1 server.2⟩

inductive RowError where
  | badDatabase (message : String)
  | panic (message : String)
  deriving DecidableEq, Repr

def required {α : Type} (message : String) : Option α → Except RowError α
  | some value => .ok value
  | none => .error (.badDatabase message)

def checked (valid : String → Bool) (message : String) (text : String) :
    Except RowError { text : String // valid text = true } :=
  if holds : valid text = true then .ok ⟨text, holds⟩
  else .error (.badDatabase message)

def untilSeparator : List Byte → List Byte × Option (List Byte)
  | [] => ([], none)
  | byte :: rest =>
      if byte = separator then ([], some rest)
      else
        let (front, behind) := untilSeparator rest
        (byte :: front, behind)

def readEvent (event value : List Byte) : Except RowError SendingEvent :=
  match value with
  | [] =>
      match RawPduId.parse event with
      | some id => .ok (.pdu id)
      | none => .error (.panic "unrecognized RawId length")
  | byte :: rest => .ok (.edu ⟨byte :: rest, List.cons_ne_nil byte rest⟩)

def invalidBytes : String := "Invalid bytes in servercurrentpdus."

def readServercurrentevent (names : Names) (key value : List Byte) :
    Except RowError (Recipient names × SendingEvent) :=
  if key.head? = some appserviceSigil then do
    let (server, rest) := untilSeparator key.tail
    let event ← required invalidBytes rest
    let server ← required "Invalid server bytes in server_currenttransaction"
      (stringFromBytes server)
    return (.appservice server, ← readEvent event value)
  else if key.head? = some pushSigil then do
    let (user, rest) := untilSeparator key.tail
    let userString ← required "Invalid user string in servercurrentevent"
      (stringFromBytes user)
    let userId ← checked names.isUserId
      "Invalid user id in servercurrentevent" userString
    let rest ← required invalidBytes rest
    let (pushkey, rest) := untilSeparator rest
    let pushkeyString ← required "Invalid pushkey in servercurrentevent"
      (stringFromBytes pushkey)
    let event ← required invalidBytes rest
    return (.push userId pushkeyString, ← readEvent event value)
  else do
    let (server, rest) := untilSeparator key
    let event ← required invalidBytes rest
    let server ← required "Invalid server bytes in server_currenttransaction"
      (stringFromBytes server)
    let server ← checked names.isServerName
      "Invalid server string in server_currenttransaction" server
    return (.federation server, ← readEvent event value)

theorem untilSeparator_append (text : String) (rest : List Byte) :
    untilSeparator (strBytes text ++ separator :: rest) =
      (strBytes text, some rest) := by
  have clear := Database.separator_notMem_strBytes text
  generalize strBytes text = bytes at clear
  induction bytes with
  | nil => simp [untilSeparator]
  | cons byte later inductionHypothesis =>
      rw [mem_cons, not_or] at clear
      simp only [cons_append, untilSeparator]
      rw [if_neg (Ne.symm clear.1), inductionHypothesis clear.2]

theorem untilSeparator_found {bytes rest : List Byte}
    (found : (untilSeparator bytes).2 = some rest) :
    bytes = (untilSeparator bytes).1 ++ separator :: rest := by
  induction bytes with
  | nil => cases found
  | cons byte later ih =>
      unfold untilSeparator at found ⊢
      split
      next isSeparator =>
        rw [if_pos isSeparator] at found
        cases found
        rw [isSeparator, nil_append]
      next differs =>
        rw [if_neg differs] at found
        exact congrArg (byte :: ·) (ih found)

theorem required_eq_ok {α : Type} {message : String} {value : Option α}
    {found : α} (result : required message value = .ok found) :
    value = some found := by
  cases value with
  | none => cases result
  | some other => exact congrArg some (Except.ok.inj result)

theorem checked_eq_ok {valid : String → Bool} {message text : String}
    {found : { text : String // valid text = true }}
    (result : checked valid message text = .ok found) : found.1 = text := by
  unfold checked at result
  split at result
  · cases result
    rfl
  · cases result

theorem checked_val {valid : String → Bool} (message : String)
    (text : { text : String // valid text = true }) :
    checked valid message text.1 = .ok text := by
  unfold checked
  rw [dif_pos text.2]

theorem readServercurrentevent_getPrefix (recipient : Recipient names)
    (event value : List Byte) :
    readServercurrentevent names
        (recipient.destination.getPrefix ++ event) value =
      (readEvent event value).map fun found => (recipient, found) := by
  have known : ∀ text message,
      required message (stringFromBytes (strBytes text)) = .ok text := by
    intro text message
    rw [Database.stringFromBytes_strBytes]
    rfl
  have rest : ∀ bytes : List Byte,
      required invalidBytes (some bytes) = .ok bytes := fun _ => rfl
  cases recipient with
  | appservice id =>
      have key : (Recipient.appservice id :
          Recipient names).destination.getPrefix ++ event =
          appserviceSigil :: (strBytes id ++ separator :: event) := by
        simp [Recipient.destination, Destination.getPrefix, ofString,
          strBytes]
      rw [key]
      simp only [readServercurrentevent, head?_cons, tail_cons,
        if_true, untilSeparator_append, rest, known, ok_bind]
      cases readEvent event value <;> rfl
  | push userId pushkey =>
      have key : (Recipient.push userId pushkey :
          Recipient names).destination.getPrefix ++ event =
          pushSigil :: (strBytes userId.1 ++ separator ::
            (strBytes pushkey ++ separator :: event)) := by
        simp [Recipient.destination, Destination.getPrefix, ofString,
          strBytes]
      have notAppservice : ¬ some pushSigil = some appserviceSigil := by decide
      rw [key]
      simp only [readServercurrentevent, head?_cons, tail_cons,
        if_neg notAppservice, if_true, untilSeparator_append, rest, known,
        checked_val, ok_bind]
      cases readEvent event value <;> rfl
  | federation server =>
      have key : (Recipient.federation server :
          Recipient names).destination.getPrefix ++ event =
          strBytes server.1 ++ separator :: event := by
        simp [Recipient.destination, Destination.getPrefix, ofString,
          strBytes]
      have head : ∀ sigil, sigil ≠ separator →
          (strBytes server.1).head? ≠ some sigil →
          (strBytes server.1 ++ separator :: event).head? ≠ some sigil := by
        intro sigil differs noSigil
        cases bytes : strBytes server.1 with
        | nil => simpa using Ne.symm differs
        | cons byte rest =>
            rw [bytes] at noSigil
            exact noSigil
      have noSigil := names.noSigil server.1 server.2
      rw [key]
      simp only [readServercurrentevent, untilSeparator_append, rest, known,
        checked_val, ok_bind]
      rw [if_neg (head _ (by decide) noSigil.1),
        if_neg (head _ (by decide) noSigil.2)]
      cases readEvent event value <;> rfl

theorem readServercurrentevent_eq_ok {key value : List Byte}
    {recipient : Recipient names} {event : SendingEvent} :
    readServercurrentevent names key value = .ok (recipient, event) ↔
      ∃ tail, key = recipient.destination.getPrefix ++ tail ∧
        readEvent tail value = .ok event := by
  have texts : ∀ {message : String} {bytes : List Byte} {text : String},
      required message (stringFromBytes bytes) = .ok text →
        bytes = strBytes text := fun known =>
    (Database.strBytes_of_stringFromBytes (required_eq_ok known)).symm
  constructor
  · intro read
    unfold readServercurrentevent at read
    split at read
    next sigil =>
      obtain ⟨rest, rfl⟩ := head?_eq_some_iff.mp sigil
      obtain ⟨tail, isTail, read⟩ := bind_eq_ok read
      obtain ⟨server, isServer, read⟩ := bind_eq_ok read
      obtain ⟨found, isEvent, read⟩ := bind_eq_ok read
      cases read
      refine ⟨tail, ?_, isEvent⟩
      have split := untilSeparator_found (required_eq_ok isTail)
      have isText : (untilSeparator rest).1 = strBytes server := texts isServer
      rw [tail_cons, isText] at split
      rw [split]
      simp [Recipient.destination, Destination.getPrefix, ofString,
        strBytes]
    · split at read
      next sigil =>
        obtain ⟨rest, rfl⟩ := head?_eq_some_iff.mp sigil
        obtain ⟨user, isUser, read⟩ := bind_eq_ok read
        obtain ⟨userId, isUserId, read⟩ := bind_eq_ok read
        obtain ⟨behind, isBehind, read⟩ := bind_eq_ok read
        obtain ⟨pushkey, isPushkey, read⟩ := bind_eq_ok read
        obtain ⟨tail, isTail, read⟩ := bind_eq_ok read
        obtain ⟨found, isEvent, read⟩ := bind_eq_ok read
        cases read
        refine ⟨tail, ?_, isEvent⟩
        have first := untilSeparator_found (required_eq_ok isBehind)
        have second := untilSeparator_found (required_eq_ok isTail)
        have userText : (untilSeparator rest).1 = strBytes user := texts isUser
        have keyText : (untilSeparator behind).1 = strBytes pushkey :=
          texts isPushkey
        rw [keyText] at second
        rw [tail_cons, userText, second, ← checked_eq_ok isUserId] at first
        rw [first]
        simp [Recipient.destination, Destination.getPrefix, ofString,
          strBytes]
      · obtain ⟨tail, isTail, read⟩ := bind_eq_ok read
        obtain ⟨text, isText, read⟩ := bind_eq_ok read
        obtain ⟨server, isServer, read⟩ := bind_eq_ok read
        obtain ⟨found, isEvent, read⟩ := bind_eq_ok read
        cases read
        refine ⟨tail, ?_, isEvent⟩
        have split := untilSeparator_found (required_eq_ok isTail)
        have isName : (untilSeparator key).1 = strBytes text := texts isText
        rw [isName, ← checked_eq_ok isServer] at split
        rw [split]
        simp [Recipient.destination, Destination.getPrefix, ofString,
          strBytes]
  · rintro ⟨tail, rfl, isEvent⟩
    rw [readServercurrentevent_getPrefix, isEvent]
    rfl

theorem Recipient.destination_injective :
    Function.Injective (@Recipient.destination names) := by
  have texts : ∀ {one other : String},
      ofString one = ofString other → one = other := by
    intro one other same
    exact Database.strBytes_inj (congrArg bytes same)
  intro one other same
  cases one with
  | appservice id =>
      cases other with
      | appservice otherId =>
          rw [texts (Destination.appservice.inj same)]
      | push _ _ | federation _ => cases same
  | push userId pushkey =>
      cases other with
      | push otherId otherKey =>
          obtain ⟨users, keys⟩ := Destination.push.inj same
          rw [Subtype.ext (texts users), texts keys]
      | appservice _ | federation _ => cases same
  | federation server =>
      cases other with
      | federation otherServer =>
          have servers := congrArg OwnedServerName.text
            (Destination.federation.inj same)
          rw [Subtype.ext (texts servers)]
      | appservice _ | push _ _ => cases same

variable {recipient : Recipient names}

theorem Recipient.prefix_iff {other : Recipient names} {tail : List Byte} :
    recipient.destination.getPrefix <+: other.destination.getPrefix ++ tail ↔
      other = recipient := by
  rw [getPrefix_prefix_iff, Recipient.destination_injective.eq_iff, eq_comm]

theorem parseEvent_eq_some {event value : List Byte} {found : SendingEvent} :
    parseEvent event value = some found ↔
      readEvent event value = .ok found := by
  cases value with
  | nil =>
      simp only [parseEvent, readEvent]
      cases RawPduId.parse event with
      | none | some id => simp
  | cons byte rest => simp [parseEvent, readEvent]

/-- The parser of the loop knows no texts, and reads at least these rows. -/
theorem parse_of_read {key value : List Byte} {event : SendingEvent}
    (read : readServercurrentevent names key value = .ok (recipient, event)) :
    parseServercurrentevent key value =
      some (recipient.destination, event) := by
  obtain ⟨tail, rfl, isEvent⟩ := readServercurrentevent_eq_ok.mp read
  rw [parseServercurrentevent_getPrefix, parseEvent_eq_some.mpr isEvent]
  rfl

/-- One row of a scan, which panics if it cannot be read. -/
def expectRow (names : Names) (row : Key × List Byte) :
    Except RowError (QueueItem × Recipient names) :=
  match readServercurrentevent names row.1 row.2 with
  | .ok (recipient, event) => .ok ((row.1, event), recipient)
  | .error _ => .error (.panic "invalid servercurrentevent")

namespace Recipient

variable (recipient : Recipient names) (tables : Tables)

def scan (rows : Rows) : Except RowError (List QueueItem) :=
  (rows.scanPrefix recipient.destination.getPrefix).mapM
    (fun row => (expectRow names row).map Prod.fst)

def activeRequestsFor : Except RowError (List QueueItem) :=
  recipient.scan tables.servercurrenteventData

def queuedRequests : Except RowError (List QueueItem) :=
  recipient.scan tables.servernameeventData

end Recipient

theorem expectRow_eq_ok {row : Key × List Byte} {item : QueueItem} :
    (expectRow names row).map Prod.fst = .ok item ↔
      ∃ recipient : Recipient names, item.1 = row.1 ∧
        readServercurrentevent names row.1 row.2 = .ok (recipient, item.2) := by
  obtain ⟨key, event⟩ := item
  unfold expectRow
  cases read : readServercurrentevent names row.1 row.2 with
  | error error => simp [Except.map]
  | ok found => simp [Except.map, eq_comm, Prod.ext_iff]

theorem scan_eq_filterMap {rows : Rows} {items : List QueueItem}
    (scanned : recipient.scan rows = .ok items) :
    (rows.scanPrefix recipient.destination.getPrefix).filterMap
      (fun row => (readRow row).map Prod.fst) = items := by
  unfold Recipient.scan at scanned
  generalize rows.scanPrefix recipient.destination.getPrefix = found at scanned
  induction found generalizing items with
  | nil =>
      cases scanned
      rfl
  | cons row rest ih =>
      rw [mapM_cons] at scanned
      obtain ⟨item, isItem, later⟩ := bind_eq_ok scanned
      obtain ⟨others, isOthers, final⟩ := bind_eq_ok later
      cases final
      obtain ⟨other, sameKey, read⟩ := expectRow_eq_ok.mp isItem
      have isRow : (readRow row).map Prod.fst = some item := by
        rw [readRow, parse_of_read read]
        exact congrArg some (Prod.ext sameKey.symm rfl)
      simp only [filterMap_cons, isRow, ih isOthers]

variable (tables : Tables) (requests : List (SendingEvent × Recipient names))

def queued : List (Key × SendingEvent × Recipient names) :=
  (tables.queueRequests (requests.map fun request =>
    (request.1, request.2.destination))).1.zip requests

theorem requestKey_prefix (request : Request) :
    ∃ tail, (tables.requestKey request).1 = request.2.getPrefix ++ tail ∧
      ∀ id, request.1 = .pdu id → tail = id.bytes := by
  obtain ⟨event, dest⟩ := request
  cases event with
  | pdu id =>
      refine ⟨id.bytes, rfl, fun other same => ?_⟩
      rw [SendingEvent.pdu.inj same]
  | edu buf | flush =>
      exact ⟨toBeBytes tables.nextCount.1, rfl, fun _ same => by cases same⟩

theorem queued_spec :
    (queued tables requests).map Prod.snd = requests ∧
      ∀ entry ∈ queued tables requests,
        ∃ tail, entry.1 = entry.2.2.destination.getPrefix ++ tail ∧
          ∀ id, entry.2.1 = .pdu id → tail = id.bytes := by
  unfold queued Tables.queueRequests
  induction requests generalizing tables with
  | nil => exact ⟨rfl, fun _ member => by cases member⟩
  | cons request rest inductionHypothesis =>
      have later := inductionHypothesis
        (tables.requestKey (request.1, request.2.destination)).2
      obtain ⟨tail, isKey, isTail⟩ := requestKey_prefix tables
        (request.1, request.2.destination)
      simp only [map_cons, Tables.requestKeys, zip_cons_cons]
      refine ⟨congrArg _ later.1, fun entry member => ?_⟩
      rcases mem_cons.mp member with here | inside
      · rw [here]
        exact ⟨tail, isKey, isTail⟩
      · exact later.2 entry inside

variable {requests : List (SendingEvent × Recipient names)}

theorem read_queued {tables : Tables}
    {entry : Key × SendingEvent × Recipient names}
    (member : entry ∈ queued tables requests) (sends : entry.2.1 ≠ .flush) :
    readServercurrentevent names entry.1 entry.2.1.value =
      .ok (entry.2.2, entry.2.1) := by
  obtain ⟨key, event, recipient⟩ := entry
  obtain ⟨tail, isKey, isTail⟩ := (queued_spec tables requests).2 _ member
  have split : key = recipient.destination.getPrefix ++ tail := isKey
  rw [split, readServercurrentevent_getPrefix]
  cases event with
  | pdu id =>
      have bytes : tail = id.bytes := isTail id rfl
      rw [bytes]
      simp only [SendingEvent.value, readEvent, RawPduId.parse_bytes]
      rfl
  | edu buf =>
      obtain ⟨bytes, notEmpty⟩ := buf
      cases bytes with
      | nil => exact absurd rfl notEmpty
      | cons byte rest => rfl
  | flush => exact absurd rfl sends

variable (tables : Tables)

/-- The value that the last of the queued rows with a key has. -/
def lastQueued (requests : List (SendingEvent × Recipient names)) (key : Key) :
    Option (List Byte) :=
  ((queued tables requests).filter (fun entry => entry.1 = key)).getLast?.map
    (fun entry => entry.2.1.value)

theorem get_queueRequests (key : Key) :
    (tables.queueRequests (requests.map fun request =>
        (request.1, request.2.destination))).2.servernameeventData.get key =
      (lastQueued tables requests key).or
        (tables.servernameeventData.get key) := by
  have same := (requestKeys_same (requests.map fun request =>
    (request.1, request.2.destination)) tables).1
  have stored : (tables.requestKeys (requests.map fun request =>
      (request.1, request.2.destination))).2.servernameeventData =
        tables.servernameeventData := by
    rw [same]
  have events : (requests.map fun request =>
      (request.1, request.2.destination)).map Prod.fst =
        requests.map Prod.fst := by
    rw [map_map]
    rfl
  have zipped : ((tables.requestKeys (requests.map fun request =>
      (request.1, request.2.destination))).1.zip
        (requests.map Prod.fst)).map rowOf =
      (queued tables requests).map fun entry =>
        (entry.1, entry.2.1.value) := by
    unfold queued
    rw [zip_map_right, map_map]
    rfl
  change (SortedTable.putAll _ (map rowOf _)).get key = _
  rw [events, zipped, stored, get_putAll, filter_map, getLast?_map]
  unfold lastQueued
  rw [Option.map_map]
  congr 3
  exact filter_congr fun _ _ => decide_eq_decide.mpr Iff.rfl

/-- A scan reads the rows of the recipient, all of them and no others, and the
loop of the sender works with what it reads. -/
structure Scans (rows : Rows) (recipient : Recipient names)
    (scanned : Except RowError (List QueueItem)) : Prop where
  items : ∀ items, scanned = .ok items → ∀ key event,
    (key, event) ∈ items ↔ ∃ value, (key, value) ∈ rows ∧
      readServercurrentevent names key value = .ok (recipient, event)
  loop : ∀ items, scanned = .ok items →
    (rows.scanPrefix recipient.destination.getPrefix).filterMap
      (fun row => (readRow row).map Prod.fst) = items
  panics : ∀ error, scanned = .error error →
    error = .panic "invalid servercurrentevent" ∧
      ∃ tail value, (recipient.destination.getPrefix ++ tail, value) ∈ rows ∧
        ∀ event, readEvent tail value ≠ .ok event

/-- The scans and the deletion of a recipient meet its own rows only, and all
of them. -/
structure OwnRows (recipient : Recipient names) : Prop where
  queued : Scans tables.servernameeventData recipient
    (recipient.queuedRequests tables)
  active : Scans tables.servercurrenteventData recipient
    (recipient.activeRequestsFor tables)
  deleted : ∀ (other : Recipient names) tail value,
    (other.destination.getPrefix ++ tail, value) ∈
        (tables.deleteAllActiveRequestsFor
          recipient.destination).servercurrenteventData ↔
      (other.destination.getPrefix ++ tail, value) ∈
        tables.servercurrenteventData ∧ other ≠ recipient
  kept : (tables.deleteAllActiveRequestsFor
      recipient.destination).servernameeventData = tables.servernameeventData

theorem mapM_error {α β : Type} {f : α → Except RowError β} {error : RowError} :
    ∀ {values : List α}, values.mapM f = .error error →
      ∃ value ∈ values, f value = .error error := by
  intro values
  induction values with
  | nil =>
      intro result
      cases result
  | cons first rest ih =>
      intro result
      rw [mapM_cons] at result
      cases found : f first with
      | error other =>
          rw [found] at result
          cases result
          exact ⟨first, mem_cons_self, found⟩
      | ok value =>
          rw [found] at result
          cases later : rest.mapM f with
          | error other =>
              rw [later] at result
              cases result
              exact (ih later).imp fun _ => .imp_left (mem_cons_of_mem first)
          | ok values =>
              rw [later] at result
              cases result

theorem scans (rows : Rows) (recipient : Recipient names) :
    Scans rows recipient (recipient.scan rows) := by
  refine ⟨?_, fun _ => scan_eq_filterMap, ?_⟩
  · intro items scanned key event
    obtain ⟨valued, found⟩ := mapM_matches scanned
    constructor
    · intro listed
      obtain ⟨row, inside, isItem⟩ := valued _ listed
      obtain ⟨stored, starts⟩ := mem_scanPrefix.mp inside
      obtain ⟨other, rfl, read⟩ := expectRow_eq_ok.mp isItem
      obtain ⟨tail, isKey, _⟩ := readServercurrentevent_eq_ok.mp read
      rw [isKey, Recipient.prefix_iff] at starts
      rw [← starts]
      exact ⟨row.2, stored, read⟩
    · rintro ⟨value, stored, read⟩
      obtain ⟨tail, isKey, _⟩ := readServercurrentevent_eq_ok.mp read
      have inside : (key, value) ∈
          rows.scanPrefix recipient.destination.getPrefix :=
        mem_scanPrefix.mpr ⟨stored, isKey ▸ prefix_append _ _⟩
      obtain ⟨item, listed, isItem⟩ := found _ inside
      have known := (@expectRow_eq_ok names (key, value) (key, event)).mpr
        ⟨recipient, rfl, read⟩
      rw [known] at isItem
      rwa [Except.ok.inj isItem]
  · intro error scanned
    obtain ⟨⟨key, value⟩, inside, isError⟩ := mapM_error scanned
    obtain ⟨stored, tail, isKey⟩ := mem_scanPrefix.mp inside
    subst isKey
    unfold expectRow at isError
    rw [readServercurrentevent_getPrefix] at isError
    refine ⟨?_, tail, value, stored, fun event isEvent => ?_⟩
    · cases found : readEvent tail value with
      | ok event =>
          rw [found] at isError
          cases isError
      | error other =>
          rw [found] at isError
          cases isError
          rfl
    · rw [isEvent] at isError
      cases isError

theorem ownRows (recipient : Recipient names) : OwnRows tables recipient := by
  refine ⟨scans _ _, scans _ _, fun other tail value => ?_, rfl⟩
  refine mem_erasePrefix.trans (and_congr_right fun _ => ?_)
  exact not_congr Recipient.prefix_iff

/-- Every queued row is stored, the last one of a key, and reads back as what it
was written for, and no scan meets the rows of another recipient. -/
structure RowCodec (requests : List (SendingEvent × Recipient names)) :
    Prop where
  requested : (queued tables requests).map Prod.snd = requests
  stored : ∀ key, (tables.queueRequests (requests.map fun request =>
      (request.1, request.2.destination))).2.servernameeventData.get key =
    (lastQueued tables requests key).or (tables.servernameeventData.get key)
  read : ∀ entry ∈ queued tables requests, entry.2.1 ≠ .flush →
    readServercurrentevent names entry.1 entry.2.1.value =
      .ok (entry.2.2, entry.2.1)
  scans : ∀ (state : Tables) (recipient : Recipient names),
    OwnRows state recipient

theorem queuedRow_codec (names : Names) (tables : Tables)
    (requests : List (SendingEvent × Recipient names)) :
    RowCodec tables requests :=
  ⟨(queued_spec tables requests).1, get_queueRequests tables,
    fun _ => read_queued, ownRows⟩

def threeRequests : List (SendingEvent × Recipient plainNames) :=
  [(.pdu (OneServer.pduId 1), .appservice "irc"),
    (.edu ⟨[123, 125], by decide⟩, .push ⟨"@a:h", rfl⟩ "phone"),
    (.pdu (OneServer.pduId 2), .federation ⟨"b.h", by decide⟩)]

theorem threeRequests_codec :
    (noTables.queueRequests (threeRequests.map fun request =>
      (request.1, request.2.destination))).2.servernameeventData.rows.map
        (fun row => row.2) = [[123, 125], [], []] ∧
      RowCodec noTables threeRequests :=
  ⟨by decide +kernel, queuedRow_codec plainNames _ _⟩

end ArcanaServer.Sending
