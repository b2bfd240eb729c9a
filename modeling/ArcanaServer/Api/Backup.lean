import ArcanaServer.KeyBackups.Service
import ArcanaServer.Library.Settles
import ArcanaServer.Library.Trace
import Mathlib.Data.Prod.Lex

namespace ArcanaServer.Api.Backup

open Library
open KeyBackups (Reader Store BackupId Session Failure)

abbrev UInt := Fin (2 ^ 53)

def uintMax : UInt := ⟨2 ^ 53 - 1, by decide⟩

/-- How the fields of an uploaded key are read. -/
structure Fields (Data : Type) where
  isVerified : Data → Except String (Option Bool)
  firstMessageIndex : Data → Except String (Option UInt)
  forwardedCount : Data → Except String (Option UInt)

inductive Error where
  | invalidParam (message : String)
  | badJson (message : String)
  | json (message : String)
  | tryFromInt
  | service (failure : Failure)
  deriving DecidableEq, Repr

structure Response where
  count : UInt
  etag : String
  deriving DecidableEq, Repr

section

variable {reader : Reader} {Algorithm Data : Type}

abbrev Route (Algorithm Data : Type) := EStateM Error (Store Algorithm Data)

variable (backup : BackupId reader)

def getCountEtag : Route Algorithm Data Response :=
  do
    let store ← get
    let keys := store.countKeys backup.userId backup.version
    if fits : keys < 2 ^ 53 then
      match store.getEtag backup.userId backup.version with
      | .ok etag => return { count := ⟨keys, fits⟩, etag }
      | .error failure => throw (.service failure)
    else throw .tryFromInt

/-- The latest version, if there is one, is not the requested one. -/
def outdated (store : Store Algorithm Data) (backup : BackupId reader) : Bool :=
  match store.getLatestBackupVersion backup.userId with
  | .ok version => decide (version ≠ backup.version)
  | .error _ => false

def checkVersion : Route Algorithm Data Unit := do
  refuseIf (outdated (← get) backup) (.invalidParam ("You may only " ++
    "manipulate the most recently created version of the backup."))

def addKey (session : Session reader) (keyData : Data) :
    Route Algorithm Data Unit := fun store =>
  match store.addKey session.backup.userId session.backup.version
      session.roomId session.sessionId keyData with
  | .ok added => .ok () added
  | .error failure => .error (.service failure) store

variable (roomId : reader.RoomId) (sessions : SortedTable String Data)

def addSessions : Route Algorithm Data Unit :=
  sessions.rows.forM fun row => addKey ⟨backup, roomId, row.1⟩ row.2

def addBackupKeysRoute
    (rooms : SortedTable reader.RoomId (SortedTable String Data)) :
    Route Algorithm Data Response := do
  checkVersion backup
  rooms.rows.forM fun room => addSessions backup room.1 room.2
  getCountEtag backup

def addBackupKeysForRoomRoute : Route Algorithm Data Response := do
  checkVersion backup
  addSessions backup roomId sessions
  getCountEtag backup

def optional {α : Type} (field : Except String (Option α)) (default : α) :
    Except Error α :=
  match field with
  | .ok found => .ok (found.getD default)
  | .error message => .error (.json message)

def required {α : Type} (field : Except String (Option α)) (missing : String) :
    Except Error α :=
  match field with
  | .ok (some value) => .ok value
  | .ok none => .error (.badJson missing)
  | .error message => .error (.json message)

def okToReplace (fields : Fields Data) (oldKey newKey : Data) :
    Except Error Bool := do
  let oldIsVerified ← optional (fields.isVerified oldKey) false
  let newIsVerified ← required (fields.isVerified newKey)
    "`is_verified` field should exist"
  if oldIsVerified ≠ newIsVerified then return !oldIsVerified
  let oldFirstMessageIndex ← optional (fields.firstMessageIndex oldKey) uintMax
  let newFirstMessageIndex ← required (fields.firstMessageIndex newKey)
    "`first_message_index` field should exist"
  if newFirstMessageIndex < oldFirstMessageIndex then return true
  if oldFirstMessageIndex < newFirstMessageIndex then return false
  let oldForwardedCount ← optional (fields.forwardedCount oldKey) uintMax
  let newForwardedCount ← required (fields.forwardedCount newKey)
    "`forwarded_count` field should exist"
  return decide (newForwardedCount < oldForwardedCount)

/-- Whether the route stores the key, if it does not refuse to compare it. -/
def decideReplace (fields : Fields Data) (stored : Option Data)
    (sessionData : Data) : Except Error Bool :=
  match stored with
  | none => .ok true
  | some oldKey => okToReplace fields oldKey sessionData

def addBackupKeysForSessionRoute (fields : Fields Data)
    (session : Session reader) (sessionData : Data) :
    Route Algorithm Data Response := do
  checkVersion session.backup
  let stored := (← get).getSession session.backup.userId
    session.backup.version session.roomId session.sessionId
  let replaces ← liftExcept (decideReplace fields stored sessionData)
  if replaces then addKey session sessionData
  getCountEtag session.backup

end

open List SortedTable

section

variable {Data : Type} {fields : Fields Data}

def fieldOr {α : Type} (field : Except String (Option α)) (default : α) : α :=
  match field with
  | .ok (some value) => value
  | .ok none | .error _ => default

/-- Verified keys come first, then those with a lower first index, then those
that were forwarded less often. -/
def rank (fields : Fields Data) (keyData : Data) : Bool ×ₗ UInt ×ₗ UInt :=
  toLex (!fieldOr (fields.isVerified keyData) false,
    toLex (fieldOr (fields.firstMessageIndex keyData) uintMax,
      fieldOr (fields.forwardedCount keyData) uintMax))

def Beats (fields : Fields Data) (one other : Data) : Prop :=
  rank fields one < rank fields other

instance (one other : Data) : Decidable (Beats fields one other) :=
  inferInstanceAs (Decidable (_ < _))

theorem beats_iff {one other : Data} : Beats fields one other ↔
      (!fieldOr (fields.isVerified one) false) <
          (!fieldOr (fields.isVerified other) false) ∨
        fieldOr (fields.isVerified one) false =
            fieldOr (fields.isVerified other) false ∧
          (fieldOr (fields.firstMessageIndex one) uintMax <
              fieldOr (fields.firstMessageIndex other) uintMax ∨
            fieldOr (fields.firstMessageIndex one) uintMax =
                fieldOr (fields.firstMessageIndex other) uintMax ∧
              fieldOr (fields.forwardedCount one) uintMax <
                fieldOr (fields.forwardedCount other) uintMax) := by
  unfold Beats rank
  rw [Prod.Lex.toLex_lt_toLex, Prod.Lex.toLex_lt_toLex, Bool.not_inj_iff]

theorem optional_ok {α : Type} {field : Except String (Option α)}
    {default value : α} (read : optional field default = .ok value) :
    value = fieldOr field default := by
  unfold optional at read
  unfold fieldOr
  cases field with
  | error message => cases read
  | ok found =>
      cases found with
      | none | some held => exact (Except.ok.inj read).symm

theorem required_ok {α : Type} {field : Except String (Option α)}
    {missing : String} {value : α} (read : required field missing = .ok value)
    (default : α) : value = fieldOr field default := by
  unfold required at read
  unfold fieldOr
  cases field with
  | error message => cases read
  | ok found =>
      cases found with
      | none => cases read
      | some held => exact (Except.ok.inj read).symm

theorem okToReplace_ok {oldKey newKey : Data} {answer : Bool}
    (result : okToReplace fields oldKey newKey = .ok answer) :
    answer = true ↔ Beats fields newKey oldKey := by
  rw [beats_iff]
  unfold okToReplace at result
  obtain ⟨oldVerified, isOldVerified, result⟩ := bind_eq_ok result
  obtain ⟨newVerified, isNewVerified, result⟩ := bind_eq_ok result
  rw [← optional_ok isOldVerified, ← required_ok isNewVerified]
  split at result
  next differs =>
    have isAnswer : answer = !oldVerified := (Except.ok.inj result).symm
    rw [isAnswer]
    cases oldVerified <;> cases newVerified <;> simp_all
  next same =>
    have verified : newVerified = oldVerified := by
      rw [not_not] at same
      exact same.symm
    obtain ⟨oldIndex, isOldIndex, result⟩ := bind_eq_ok result
    obtain ⟨newIndex, isNewIndex, result⟩ := bind_eq_ok result
    rw [← optional_ok isOldIndex, ← required_ok isNewIndex]
    split at result
    next less =>
      have isAnswer : answer = true := (Except.ok.inj result).symm
      simp [isAnswer, verified, less]
    next notLess =>
      split at result
      next greater =>
        have isAnswer : answer = false := (Except.ok.inj result).symm
        simp [isAnswer, verified, notLess, greater.ne']
      next notGreater =>
        have equal := le_antisymm (not_lt.mp notGreater) (not_lt.mp notLess)
        obtain ⟨oldCount, isOldCount, result⟩ := bind_eq_ok result
        obtain ⟨newCount, isNewCount, result⟩ := bind_eq_ok result
        rw [← optional_ok isOldCount, ← required_ok isNewCount]
        have isAnswer : answer = decide (newCount < oldCount) :=
          (Except.ok.inj result).symm
        simp [isAnswer, verified, equal]

end

section

variable {reader : Reader} {Algorithm Data : Type}
  {fields : Fields Data} {store after : Store Algorithm Data}
  {backup : BackupId reader} {session : Session reader}

def keyOf (store : Store Algorithm Data) (session : Session reader) :
    Option Data :=
  store.getSession session.backup.userId session.backup.version
    session.roomId session.sessionId

def Admits (store : Store Algorithm Data) (backup : BackupId reader) : Prop :=
  outdated store backup = false ∧
    store.getBackup backup.userId backup.version ≠ none

def Adds (carried : Session reader → Option Data)
    (before after : Store Algorithm Data) : Prop :=
  ∀ session, keyOf after session = keyOf before session ∨
    ∃ keyData, carried session = some keyData ∧
      keyOf after session = some keyData

namespace Adds

variable {carried : Session reader → Option Data}

instance : IsPreorder (Store Algorithm Data) (Adds carried) where
  refl _ _ := Or.inl rfl
  trans first second third begins ends session := by
    rcases ends session with keeps | writes
    · rw [keeps]
      exact begins session
    · exact Or.inr writes

theorem stays {keyData : Data} (adds : Adds carried store after)
    (carries : carried session = some keyData)
    (stored : keyOf store session = some keyData) :
    keyOf after session = some keyData := by
  rcases adds session with keeps | writes
  · exact keeps.trans stored
  · obtain ⟨written, isWritten, found⟩ := writes
    rw [carries] at isWritten
    rw [found, isWritten]

end Adds

theorem addKey_meets (session : Session reader) (keyData : Data)
    (store : Store Algorithm Data) :
    Meets (fun _ after => ∀ other : Session reader, keyOf after other =
        if other = session then some keyData else keyOf store other)
      (fun _ after => after = store) (addKey session keyData store) := by
  unfold addKey
  cases result : store.addKey session.backup.userId session.backup.version
      session.roomId session.sessionId keyData with
  | error failure => exact rfl
  | ok added =>
      intro other
      change added.backupkeyidBackup.get other.key = _
      rw [Store.addKey_ok result, get_put]
      simp only [Session.key_injective.eq_iff]
      rfl

theorem addKey_absent (session : Session reader) (keyData : Data)
    (absent : store.getBackup session.backup.userId session.backup.version =
      none) : ∃ error, addKey session keyData store = .error error store := by
  unfold addKey
  rw [Store.addKey_absent absent]
  exact ⟨_, rfl⟩

theorem addKey_adds {carried : Session reader → Option Data}
    {keyData : Data} (carries : carried session = some keyData)
    (store : Store Algorithm Data) :
    Meets (fun _ after => Adds carried store after ∧
        keyOf after session = some keyData)
      (fun _ after => Adds carried store after)
      (addKey session keyData store) := by
  refine (addKey_meets session keyData store).mono ?_ ?_
  · intro _ after written
    refine ⟨fun other => ?_, (written session).trans (if_pos rfl)⟩
    by_cases same : other = session
    · refine .inr ⟨keyData, same ▸ carries, ?_⟩
      exact (written other).trans (if_pos same)
    · exact .inl ((written other).trans (if_neg same))
  · intro _ after same
    rw [same]
    exact refl_of _ store

theorem forM_adds {α : Type} {carried : Session reader → Option Data}
    {action : α → Route Algorithm Data Unit} {values : List α}
    {parts : α → Session reader → Data → Prop}
    (sound : ∀ value ∈ values, ∀ session keyData,
      parts value session keyData → carried session = some keyData)
    (each : ∀ value ∈ values, ∀ store,
      Meets (fun _ after => Adds carried store after ∧
          ∀ session keyData, parts value session keyData →
            keyOf after session = some keyData)
        (fun _ after => Adds carried store after) (action value store))
    (store : Store Algorithm Data) :
    Meets (fun _ after => Adds carried store after ∧
        ∀ value ∈ values, ∀ session keyData, parts value session keyData →
          keyOf after session = some keyData)
      (fun _ after => Adds carried store after) (values.forM action store) := by
  refine Meets.forM (fun visited after => Adds carried store after ∧
    ∀ value ∈ visited, ∀ session keyData, parts value session keyData →
      keyOf after session = some keyData) ?_ values [] store rfl
        ⟨refl_of _ store, fun _ member => absurd member not_mem_nil⟩
  intro visited value rest middle whole holds
  have inside : value ∈ values := by
    rw [whole]
    exact mem_append_right visited mem_cons_self
  refine (each value inside middle).mono ?_ ?_
  · intro _ after ⟨adds, puts⟩
    refine ⟨trans_of _ holds.1 adds, ?_⟩
    intro other member session keyData part
    rcases mem_append.mp member with earlier | here
    · have whole' : other ∈ values := by
        rw [whole]
        exact mem_append_left _ earlier
      exact adds.stays (sound other whole' session keyData part)
        (holds.2 other earlier session keyData part)
    · rw [mem_singleton.mp here] at part
      exact puts session keyData part
  · intro _ after adds
    exact trans_of _ holds.1 adds

theorem getCountEtag_rests (backup : BackupId reader)
    (store : Store Algorithm Data) :
    ended (getCountEtag backup store) = store := by
  unfold getCountEtag
  rw [get_bind]
  by_cases fits : store.countKeys backup.userId backup.version < 2 ^ 53
  · rw [dif_pos fits]
    cases store.getEtag backup.userId backup.version <;> rfl
  · rw [dif_neg fits]
    rfl

theorem checkVersion_of_current (current : outdated store backup = false) :
    checkVersion backup store = .ok () store := by
  unfold checkVersion
  rw [get_bind, current]
  rfl

theorem checkVersion_of_outdated (old : outdated store backup = true) :
    ∃ error, checkVersion backup store = .error error store := by
  unfold checkVersion
  rw [get_bind, old]
  exact ⟨_, rfl⟩

def bulkRoute (backup : BackupId reader) (loop : Route Algorithm Data Unit) :
    Route Algorithm Data Response := do
  checkVersion backup
  loop
  getCountEtag backup

theorem bulkRoute_current {loop : Route Algorithm Data Unit}
    (current : outdated store backup = false) :
    ended (bulkRoute backup loop store) = ended (loop store) := by
  unfold bulkRoute
  rw [bind_of_ok _ (checkVersion_of_current current)]
  cases result : loop store with
  | ok _ middle =>
      rw [bind_of_ok _ result]
      exact getCountEtag_rests backup middle
  | error error middle =>
      rw [bind_of_error _ result]
      rfl

theorem bulkRoute_outdated {loop : Route Algorithm Data Unit}
    (old : outdated store backup = true) :
    ended (bulkRoute backup loop store) = store := by
  obtain ⟨error, refused⟩ := checkVersion_of_outdated old
  unfold bulkRoute
  rw [bind_of_error _ refused]
  rfl

structure Bulk (backup : BackupId reader)
    (carried : Session reader → Option Data)
    (loop : Route Algorithm Data Unit) : Prop where
  adds : ∀ store, Meets (fun _ after => Adds carried store after ∧
      ∀ session keyData, carried session = some keyData →
        keyOf after session = some keyData)
    (fun _ after => Adds carried store after) (loop store)
  idle : ∀ store, store.getBackup backup.userId backup.version = none →
    ended (loop store) = store

namespace Bulk

variable {carried : Session reader → Option Data}
  {loop : Route Algorithm Data Unit} (bulk : Bulk backup carried loop)

include bulk

theorem route_adds (store : Store Algorithm Data) :
    Adds carried store (ended (bulkRoute backup loop store)) := by
  cases version : outdated store backup with
  | true =>
      rw [bulkRoute_outdated version]
      exact refl_of _ store
  | false =>
      rw [bulkRoute_current version]
      have meets := bulk.adds store
      cases result : loop store with
      | ok _ middle =>
          rw [result] at meets
          exact meets.1
      | error error middle =>
          rw [result] at meets
          exact meets

theorem route_idle (refused : ¬ Admits store backup) :
    ended (bulkRoute backup loop store) = store := by
  cases version : outdated store backup with
  | true => exact bulkRoute_outdated version
  | false =>
      rw [bulkRoute_current version]
      apply bulk.idle
      by_contra present
      exact refused ⟨version, present⟩

theorem route_ok {response : Response}
    (result : bulkRoute backup loop store = .ok response after)
    {keyData : Data} (carries : carried session = some keyData) :
    keyOf after session = some keyData := by
  obtain ⟨_, middle, isChecked, result⟩ := bind_ok result
  obtain ⟨_, written, isWritten, result⟩ := bind_ok result
  have meets := bulk.adds middle
  rw [isWritten] at meets
  have rests := getCountEtag_rests backup written
  rw [result] at rests
  have same : after = written := rests
  rw [same]
  exact meets.2 session keyData carries

end Bulk

inductive Upload (reader : Reader) (Data : Type) where
  | allRooms (backup : BackupId reader)
      (rooms : SortedTable reader.RoomId (SortedTable String Data))
  | oneRoom (backup : BackupId reader) (roomId : reader.RoomId)
      (sessions : SortedTable String Data)
  | oneSession (session : Session reader) (sessionData : Data)

namespace Upload

def route (fields : Fields Data) :
    Upload reader Data → Route Algorithm Data Response
  | .allRooms backup rooms => addBackupKeysRoute backup rooms
  | .oneRoom backup roomId sessions =>
      addBackupKeysForRoomRoute backup roomId sessions
  | .oneSession session sessionData =>
      addBackupKeysForSessionRoute fields session sessionData

def carried : Upload reader Data → Session reader → Option Data
  | .allRooms backup rooms, session =>
      if session.backup = backup then
        (rooms.get session.roomId).bind (·.get session.sessionId)
      else none
  | .oneRoom backup roomId sessions, session =>
      if session.backup = backup ∧ session.roomId = roomId then
        sessions.get session.sessionId
      else none
  | .oneSession named sessionData, session =>
      if session = named then some sessionData else none

def backupId : Upload reader Data → BackupId reader
  | .allRooms backup _ | .oneRoom backup _ _ => backup
  | .oneSession session _ => session.backup

def Compares : Upload reader Data → Prop
  | .allRooms _ _ | .oneRoom _ _ _ => False
  | .oneSession _ _ => True

theorem carried_room {roomId : reader.RoomId}
    {sessions : SortedTable String Data} {keyData : Data} :
    carried (.oneRoom backup roomId sessions) session = some keyData ↔
      (session.backup = backup ∧ session.roomId = roomId) ∧
        (session.sessionId, keyData) ∈ sessions := by
  simp only [carried]
  split
  next named => simp [named, get_eq_some]
  next apart => simp [apart]

theorem carried_allRooms
    {rooms : SortedTable reader.RoomId (SortedTable String Data)}
    {keyData : Data} :
    carried (.allRooms backup rooms) session = some keyData ↔
      ∃ room ∈ rooms.rows,
        carried (.oneRoom backup room.1 room.2) session = some keyData := by
  simp only [carried_room]
  simp only [carried]
  split
  next named =>
    rw [Option.bind_eq_some_iff]
    constructor
    · intro ⟨sessions, inRooms, inSessions⟩
      exact ⟨(session.roomId, sessions), get_eq_some.mp inRooms,
        ⟨named, rfl⟩, get_eq_some.mp inSessions⟩
    · intro ⟨⟨roomId, sessions⟩, inRooms, both, inSessions⟩
      have sameRoom : session.roomId = roomId := both.2
      rw [sameRoom]
      exact ⟨sessions, get_eq_some.mpr inRooms, get_eq_some.mpr inSessions⟩
  next apart => simp [apart]

end Upload

theorem addSessions_meets {carried : Session reader → Option Data}
    {roomId : reader.RoomId} {sessions : SortedTable String Data}
    (sound : ∀ session keyData,
      Upload.carried (.oneRoom backup roomId sessions) session = some keyData →
        carried session = some keyData) (store : Store Algorithm Data) :
    Meets (fun _ after => Adds carried store after ∧
        ∀ session keyData, Upload.carried (.oneRoom backup roomId sessions)
          session = some keyData → keyOf after session = some keyData)
      (fun _ after => Adds carried store after)
      (addSessions backup roomId sessions store) := by
  have meets := @forM_adds reader Algorithm Data (String × Data) carried
    (fun row => addKey ⟨backup, roomId, row.1⟩ row.2) sessions.rows
    (fun row session keyData => session = ⟨backup, roomId, row.1⟩ ∧
      keyData = row.2) ?_ ?_ store
  · refine meets.mono ?_ fun _ _ adds => adds
    intro _ after ⟨adds, puts⟩
    refine ⟨adds, fun session keyData carries => ?_⟩
    obtain ⟨⟨sameBackup, sameRoom⟩, member⟩ := Upload.carried_room.mp carries
    exact puts _ member session keyData
      ⟨Session.ext sameBackup sameRoom rfl, rfl⟩
  · intro row member session keyData ⟨isSession, isData⟩
    apply sound
    rw [isSession, isData]
    exact Upload.carried_room.mpr ⟨⟨rfl, rfl⟩, member⟩
  · intro row member store
    have carries : carried ⟨backup, roomId, row.1⟩ = some row.2 :=
      sound _ _ (Upload.carried_room.mpr ⟨⟨rfl, rfl⟩, member⟩)
    refine (addKey_adds carries store).mono ?_ fun _ _ adds => adds
    intro _ after ⟨adds, put⟩
    refine ⟨adds, fun session keyData ⟨isSession, isData⟩ => ?_⟩
    rw [isSession, isData]
    exact put

theorem forM_idle {α : Type} {action : α → Route Algorithm Data Unit}
    {values : List α} (each : ∀ value ∈ values,
      ended (action value store) = store) :
    ended (values.forM action store) = store := by
  have meets := @Meets.forM Error (Store Algorithm Data) α
    (fun _ after => after = store) action (fun _ after => after = store) values
    ?_ values [] store rfl rfl
  · cases result : values.forM action store with
    | ok _ after | error error after =>
        rw [result] at meets
        exact meets
  · intro visited value rest middle whole same
    rw [same]
    have rests := each value (by rw [whole]; simp)
    cases result : action value store with
    | ok _ after | error error after =>
        rw [result] at rests
        exact rests

theorem addSessions_idle {roomId : reader.RoomId}
    {sessions : SortedTable String Data}
    (absent : store.getBackup backup.userId backup.version = none) :
    ended (addSessions backup roomId sessions store) = store := by
  refine forM_idle fun row _ => ?_
  obtain ⟨error, refused⟩ := addKey_absent ⟨backup, roomId, row.1⟩ row.2 absent
  rw [refused]
  rfl

theorem room_bulk (backup : BackupId reader) (roomId : reader.RoomId)
    (sessions : SortedTable String Data) :
    Bulk backup (Upload.carried (.oneRoom backup roomId sessions))
      (addSessions backup roomId sessions : Route Algorithm Data Unit) :=
  ⟨addSessions_meets fun _ _ => id, fun _ => addSessions_idle⟩

theorem allRooms_bulk (backup : BackupId reader)
    (rooms : SortedTable reader.RoomId (SortedTable String Data)) :
    Bulk backup (Upload.carried (.allRooms backup rooms))
      (rooms.rows.forM fun room => addSessions backup room.1 room.2 :
        Route Algorithm Data Unit) := by
  refine ⟨fun store => ?_, fun store absent => ?_⟩
  · have meets := @forM_adds reader Algorithm Data _
      (Upload.carried (.allRooms backup rooms))
      (fun room => addSessions backup room.1 room.2) rooms.rows
      (fun room session keyData =>
        Upload.carried (.oneRoom backup room.1 room.2) session = some keyData)
      ?_ ?_ store
    · refine meets.mono ?_ fun _ _ adds => adds
      intro _ after ⟨adds, puts⟩
      refine ⟨adds, fun session keyData carries => ?_⟩
      obtain ⟨room, member, inRoom⟩ := Upload.carried_allRooms.mp carries
      exact puts room member session keyData inRoom
    · intro room member session keyData inRoom
      exact Upload.carried_allRooms.mpr ⟨room, member, inRoom⟩
    · intro room member store
      exact addSessions_meets (fun session keyData inRoom =>
        Upload.carried_allRooms.mpr ⟨room, member, inRoom⟩) store
  · exact forM_idle fun room _ => addSessions_idle absent

def Fair (fields : Fields Data) (session : Session reader)
    (store : Store Algorithm Data) (upload : Upload reader Data) : Prop :=
  upload.Compares ∨ (Admits store upload.backupId →
    ∀ keyData old, upload.carried session = some keyData →
      keyOf store session = some old → ¬ Beats fields old keyData)

def Improves (fields : Fields Data) (session : Session reader)
    (upload : Upload reader Data) (before after : Store Algorithm Data) :
    Prop :=
  keyOf after session = keyOf before session ∨
    ∃ keyData, upload.carried session = some keyData ∧
      keyOf after session = some keyData ∧
      ∀ old, keyOf before session = some old → ¬ Beats fields old keyData

variable {upload : Upload reader Data}

theorem Bulk.improves {loop : Route Algorithm Data Unit}
    (bulk : Bulk upload.backupId upload.carried loop)
    (fair : Admits store upload.backupId →
      ∀ keyData old, upload.carried session = some keyData →
        keyOf store session = some old → ¬ Beats fields old keyData) :
    Improves fields session upload store
      (ended (bulkRoute upload.backupId loop store)) := by
  by_cases admitted : Admits store upload.backupId
  · rcases bulk.route_adds store session with keeps | writes
    · exact .inl keeps
    · obtain ⟨keyData, carries, written⟩ := writes
      exact .inr ⟨keyData, carries, written,
        fun old stored => fair admitted keyData old carries stored⟩
  · rw [bulk.route_idle admitted]
    exact .inl rfl

section

variable (fields : Fields Data) (named : Session reader) (sessionData : Data)

def Replaces (before after : Store Algorithm Data) : Prop :=
  decideReplace fields (keyOf before named) sessionData = .ok true ∧
    addKey named sessionData before = .ok () after

theorem sessionRoute_meets (store : Store Algorithm Data) :
    Meets
      (fun _ after =>
        decideReplace fields (keyOf store named) sessionData = .ok false ∧
            after = store ∨ Replaces fields named sessionData store after)
      (fun _ after =>
        after = store ∨ Replaces fields named sessionData store after)
      (addBackupKeysForSessionRoute fields named sessionData store) := by
  have counted : ∀ middle : Store Algorithm Data,
      Meets (fun _ after => after = middle) (fun _ after => after = middle)
        (getCountEtag named.backup middle) := by
    intro middle
    have rests := getCountEtag_rests named.backup middle
    cases result : getCountEtag named.backup middle with
    | ok _ _ | error _ _ =>
        rw [result] at rests
        exact rests
  unfold addBackupKeysForSessionRoute
  cases version : outdated store named.backup with
  | true =>
      obtain ⟨error, refused⟩ := checkVersion_of_outdated version
      rw [bind_of_error _ refused]
      exact .inl rfl
  | false =>
      rw [bind_of_ok _ (checkVersion_of_current version), get_bind]
      refine Meets.lift_bind (fun _ _ => .inl rfl) ?_
      intro replaces decided
      cases replaces with
      | false =>
          refine (counted store).mono ?_ fun _ _ same => .inl same
          intro _ after same
          exact .inl ⟨decided, same⟩
      | true =>
          rw [if_pos rfl]
          cases added : addKey named sessionData store with
          | error error middle =>
              have meets := addKey_meets named sessionData store
              rw [added] at meets
              rw [bind_of_error _ added]
              exact .inl meets
          | ok _ middle =>
              rw [bind_of_ok _ added]
              refine (counted middle).mono ?_ ?_
              · intro _ after same
                exact .inr ⟨decided, same ▸ added⟩
              · intro _ after same
                exact .inr ⟨decided, same ▸ added⟩

end

theorem Replaces.improves {named : Session reader} {sessionData : Data}
    (replaces : Replaces fields named sessionData store after) :
    Improves fields session (.oneSession named sessionData) store after := by
  have meets := addKey_meets named sessionData store
  rw [replaces.2] at meets
  by_cases same : session = named
  · refine .inr ⟨sessionData, if_pos same,
      (meets session).trans (if_pos same), fun old stored => ?_⟩
    have decided := replaces.1
    rw [← same, stored] at decided
    exact lt_asymm ((okToReplace_ok decided).mp rfl)
  · exact .inl ((meets session).trans (if_neg same))

/-- Refused or not, an upload makes the key of a session no worse. -/
theorem route_improves (fair : Fair fields session store upload) :
    Improves fields session upload store
      (ended (upload.route fields store)) := by
  cases upload with
  | allRooms backup rooms =>
      have compared := fair.resolve_left id
      exact @Bulk.improves _ _ _ fields store session (.allRooms backup rooms) _
        (allRooms_bulk backup rooms) compared
  | oneRoom backup roomId sessions =>
      have compared := fair.resolve_left id
      exact @Bulk.improves _ _ _ fields store session
        (.oneRoom backup roomId sessions) _ (room_bulk backup roomId sessions)
        compared
  | oneSession named sessionData =>
      have meets := sessionRoute_meets fields named sessionData store
      change Improves fields session _ store
        (ended (addBackupKeysForSessionRoute fields named sessionData store))
      cases result : addBackupKeysForSessionRoute fields named sessionData
          store with
      | ok response after =>
          rw [result] at meets
          rcases meets with kept | replaces
          · exact .inl (congrArg (keyOf · session) kept.2)
          · exact replaces.improves
      | error error after =>
          rw [result] at meets
          rcases meets with kept | replaces
          · exact .inl (congrArg (keyOf · session) kept)
          · exact replaces.improves

/-- An accepted key does not beat the one that is stored then. -/
theorem route_accepts {response : Response}
    (result : upload.route fields store = .ok response after) {keyData : Data}
    (carries : upload.carried session = some keyData) :
    ∃ stored, keyOf after session = some stored ∧
      ¬ Beats fields keyData stored := by
  cases upload with
  | allRooms backup rooms =>
      exact ⟨keyData, (allRooms_bulk backup rooms).route_ok result carries,
        lt_irrefl _⟩
  | oneRoom backup roomId sessions =>
      exact ⟨keyData, (room_bulk backup roomId sessions).route_ok result
        carries, lt_irrefl _⟩
  | oneSession named sessionData =>
      have meets := sessionRoute_meets fields named sessionData store
      have route : addBackupKeysForSessionRoute fields named sessionData
        store = .ok response after := result
      rw [route] at meets
      simp only [Upload.carried] at carries
      split at carries
      next same =>
        have isKey := Option.some.inj carries
        rw [same, ← isKey]
        rcases meets with kept | replaces
        · rw [kept.2]
          cases stored : keyOf store named with
          | none =>
              rw [stored] at kept
              cases kept.1
          | some old =>
              rw [stored] at kept
              refine ⟨old, rfl, fun beats => ?_⟩
              cases (okToReplace_ok kept.1).mpr beats
        · have added := addKey_meets named sessionData store
          rw [replaces.2] at added
          exact ⟨sessionData, (added named).trans (if_pos rfl), lt_irrefl _⟩
      · cases carries

abbrev UploadEntry (reader : Reader) (Algorithm Data : Type) :=
  Entry (Store Algorithm Data) (Upload reader Data) (Except Error Response)

def step (fields : Fields Data) (store : Store Algorithm Data)
    (upload : Upload reader Data) :
    Store Algorithm Data × Except Error Response :=
  (ended (upload.route fields store), outcome (upload.route fields store))

def Uploads (session : Session reader)
    (entry : UploadEntry reader Algorithm Data) (keyData : Data) : Prop :=
  entry.input.carried session = some keyData ∧
    ∃ response, entry.output = .ok response

/-- The key is one that was there or came with a request, and none that was
there or was accepted beats it. -/
structure Best (fields : Fields Data) (session : Session reader)
    (start : Store Algorithm Data)
    (history : List (UploadEntry reader Algorithm Data))
    (state : Store Algorithm Data) : Prop where
  offered : ∀ stored, keyOf state session = some stored →
    keyOf start session = some stored ∨
      ∃ entry ∈ history, entry.input.carried session = some stored
  unbeaten : ∀ keyData, (keyOf start session = some keyData ∨
      ∃ entry ∈ history, Uploads session entry keyData) →
    ∃ stored, keyOf state session = some stored ∧ ¬ Beats fields keyData stored

theorem Improves.unbeaten {keyData old : Data}
    (improves : Improves fields session upload store after)
    (stored : keyOf store session = some old)
    (unbeaten : ¬ Beats fields keyData old) :
    ∃ stored, keyOf after session = some stored ∧
      ¬ Beats fields keyData stored := by
  rcases improves with keeps | writes
  · exact ⟨old, keeps.trans stored, unbeaten⟩
  · obtain ⟨new, _, written, notBeaten⟩ := writes
    refine ⟨new, written, ?_⟩
    have below := not_lt.mp (notBeaten old stored)
    exact not_lt.mpr (below.trans (not_lt.mp unbeaten))

theorem Best.step {start : Store Algorithm Data}
    {history : List (UploadEntry reader Algorithm Data)}
    (best : Best fields session start history store)
    (fair : Fair fields session store upload) :
    Best fields session start
      (history ++ [entryOf (Backup.step fields) store upload])
      (Backup.step fields store upload).1 := by
  have improves : Improves fields session upload store
      (Backup.step fields store upload).1 := route_improves fair
  constructor
  · intro stored found
    rcases improves with keeps | writes
    · rw [keeps] at found
      refine (best.offered stored found).imp id ?_
      intro ⟨entry, member, carries⟩
      exact ⟨entry, mem_append_left _ member, carries⟩
    · obtain ⟨keyData, carries, written, _⟩ := writes
      have isKey := Option.some.inj (written.symm.trans found)
      exact .inr ⟨_, mem_append_right _ mem_cons_self, isKey ▸ carries⟩
  · intro keyData offered
    have earlier : (keyOf start session = some keyData ∨
        ∃ entry ∈ history, Uploads session entry keyData) →
        ∃ stored, keyOf (Backup.step fields store upload).1 session =
          some stored ∧ ¬ Beats fields keyData stored := by
      intro before
      obtain ⟨old, stored, unbeaten⟩ := best.unbeaten keyData before
      exact improves.unbeaten stored unbeaten
    rcases offered with initial | uploaded
    · exact earlier (.inl initial)
    · obtain ⟨entry, member, uploads⟩ := uploaded
      rcases mem_append.mp member with before | here
      · exact earlier (.inr ⟨entry, before, uploads⟩)
      · rw [mem_singleton.mp here] at uploads
        obtain ⟨carries, response, accepted⟩ := uploads
        obtain ⟨after, result⟩ := outcome_ok accepted
        have accepts := route_accepts result carries
        have isAfter : (Backup.step fields store upload).1 = after :=
          congrArg ended result
        rw [isAfter]
        exact accepts

/-- As long as no key that comes with the keys of a room or of all rooms is
beaten by the stored one, the best key wins. -/
theorem bestKey_wins {start state : Store Algorithm Data}
    {history : List (UploadEntry reader Algorithm Data)}
    (reaches : Reaches (Backup.step fields) start history state)
    (fair : Always (fun _ entry =>
      Fair fields session entry.before entry.input) history) :
    Best fields session start history state := by
  refine reaches.invariant (Best fields session start) ?_ ?_ fair
  · refine ⟨fun stored found => .inl found, fun keyData offered => ?_⟩
    rcases offered with initial | uploaded
    · exact ⟨keyData, initial, lt_irrefl _⟩
    · obtain ⟨_, member, _⟩ := uploaded
      cases member
  · intro history store upload best fairHere
    exact best.step fairHere

end

namespace AliceUploads

open KeyBackups.AliceBackups (reader alice session)

abbrev KeyData := Bool × UInt × UInt

def fields : Fields KeyData where
  isVerified keyData := .ok (some keyData.1)
  firstMessageIndex keyData := .ok (some keyData.2.1)
  forwardedCount keyData := .ok (some keyData.2.2)

def start : Store Unit KeyData := ((Store.empty 0).createBackup alice ()).2

def through (keyData : KeyData) :
    List (Upload reader KeyData) :=
  [.oneSession (session "1" "ab") (true, 5, 0),
    .oneRoom (session "1" "ab").backup (session "1" "ab").roomId
      (SortedTable.empty.put "ab" keyData)]

theorem bestKey_wins_earlierIndex :
    Best fields (session "1" "ab") start
      (run (Backup.step fields) start (through (true, 3, 0))).1
      (run (Backup.step fields) start (through (true, 3, 0))).2 := by
  refine bestKey_wins (reaches_run _ start (through (true, 3, 0)))
    (Always.of_forall_mem fun entry member => ?_)
  rcases mem_cons.mp member with first | rest
  · rw [first]
    exact .inl trivial
  · rw [mem_singleton.mp rest]
    refine .inr fun _ keyData old carries stored => ?_
    have second : Upload.carried (.oneRoom (session "1" "ab").backup
        (session "1" "ab").roomId
        (empty.put "ab" ((true, 3, 0) : KeyData)))
        (session "1" "ab") = some (true, 3, 0) := by decide +kernel
    have kept : keyOf (Backup.step fields start (.oneSession
        (session "1" "ab") ((true, 5, 0) : KeyData))).1 (session "1" "ab") =
          some (true, 5, 0) := by decide +kernel
    rw [Option.some.inj (carries.symm.trans second),
      Option.some.inj (stored.symm.trans kept)]
    decide

/-- The key that comes with the keys of its room takes the place of the
verified one. -/
theorem unverified_replaces : ¬ ∀ history state,
      Reaches (Backup.step fields) start history state →
      Best fields (session "1" "ab") start history state := by
  intro every
  have best := every _ _ (reaches_run _ start (through (false, 5, 0)))
  obtain ⟨stored, found, unbeaten⟩ := best.unbeaten (true, 5, 0)
    (.inr ⟨_, mem_cons_self, rfl, ⟨1, "3"⟩, by decide +kernel⟩)
  have kept : keyOf (run (Backup.step fields) start
      (through (false, 5, 0))).2 (session "1" "ab") =
        some (false, 5, 0) := by decide +kernel
  rw [Option.some.inj (found.symm.trans kept)] at unbeaten
  exact unbeaten (by decide)

end AliceUploads

end ArcanaServer.Api.Backup
