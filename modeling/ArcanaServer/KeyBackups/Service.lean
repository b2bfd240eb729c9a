import ArcanaServer.Database.Prefixes
import ArcanaServer.Library.EntryTable
import Mathlib.Data.String.Basic
import Mathlib.Order.Fin.Basic

namespace ArcanaServer.KeyBackups

open Library
open Database (Key textKey textPrefix fromSlice joined)
open List

/-- How keys are read: the assertions of the build and the grammars of ids. -/
structure Reader where
  debug : Bool
  isUserId : String → Bool
  isRoomId : String → Bool

def plainReader : Reader where
  debug := false
  isUserId text := text.toList.head? = some '@'
  isRoomId text := text.toList.head? = some '!'

abbrev Checked (valid : String → Bool) := { text : String // valid text = true }

namespace Reader

abbrev UserId (reader : Reader) := Checked reader.isUserId

abbrev RoomId (reader : Reader) := Checked reader.isRoomId

end Reader

def parseChecked (valid : String → Bool) (text : String) :
    Option (Checked valid) :=
  if holds : valid text = true then some ⟨text, holds⟩ else none

inductive Failure where
  | notFound (message : String)
  | panic (message : String)
  deriving DecidableEq, Repr

structure Store (Algorithm Data : Type) where
  counter : Nat
  backupidAlgorithm : SortedTable Key Algorithm
  backupidEtag : SortedTable Key Nat
  backupkeyidBackup : SortedTable Key Data

namespace Store

variable {reader : Reader} {Algorithm Data : Type}
  (store : Store Algorithm Data)

def empty (counter : Nat) : Store Algorithm Data where
  counter
  backupidAlgorithm := .empty
  backupidEtag := .empty
  backupkeyidBackup := .empty

def nextCount : Nat × Store Algorithm Data :=
  let counter := nextCounter store.counter
  (counter, { store with counter })

def createBackup (userId : reader.UserId) (backupMetadata : Algorithm) :
    String × Store Algorithm Data :=
  let (drawn, store) := store.nextCount
  let version := toString drawn
  let (count, store) := store.nextCount
  let key := textKey [userId, version]
  (version, { store with
    backupidAlgorithm := store.backupidAlgorithm.put key backupMetadata
    backupidEtag := store.backupidEtag.put key count })

variable (userId : reader.UserId) (version : String)

def deleteBackup : Store Algorithm Data :=
  let key := textKey [userId, version]
  { store with
    backupidAlgorithm := store.backupidAlgorithm.erase key
    backupidEtag := store.backupidEtag.erase key
    backupkeyidBackup :=
      store.backupkeyidBackup.erasePrefix (textPrefix [userId, version]) }

def updateBackup (backupMetadata : Algorithm) :
    Except Failure (String × Store Algorithm Data) :=
  let key := textKey [userId, version]
  match store.backupidAlgorithm.get key with
  | none => .error (.notFound "Tried to update nonexistent backup.")
  | some _ =>
      let (count, store) := store.nextCount
      .ok (version, { store with
        backupidEtag := store.backupidEtag.put key count
        backupidAlgorithm := store.backupidAlgorithm.put key backupMetadata })

def readBackupId (reader : Reader) (key : Key) :
    Option (reader.UserId × String) :=
  match fromSlice reader.debug [.str, .str] key with
  | .ok [.component (.str userId), .component (.str version)] =>
      (parseChecked reader.isUserId userId).map (·, version)
  | _ => none

def revBackupsFrom : List ((reader.UserId × String) × Algorithm) :=
  let lastPossibleKey := joined [.str userId, .u64 (UInt64.ofNat u64Max)]
  let rows := store.backupidAlgorithm.rows.reverse.dropWhile
    fun row => lastPossibleKey < row.1
  (rows.filterMap fun row =>
    (readBackupId reader row.1).map (·, row.2)).takeWhile
      fun backup => backup.1.1 = userId

def getLatestBackupVersion : Except Failure String :=
  match (store.revBackupsFrom userId).head? with
  | some backup => .ok backup.1.2
  | none => .error (.notFound "No backup versions found")

def getLatestBackup : Except Failure (String × Algorithm) :=
  match (store.revBackupsFrom userId).head? with
  | some backup => .ok (backup.1.2, backup.2)
  | none => .error (.notFound "No backup found")

def getBackup : Option Algorithm :=
  store.backupidAlgorithm.get (textKey [userId, version])

variable (roomId : reader.RoomId)

def addKey (sessionId : String) (keyData : Data) :
    Except Failure (Store Algorithm Data) :=
  let key := textKey [userId, version]
  match store.backupidAlgorithm.get key with
  | none => .error (.notFound "Tried to update nonexistent backup.")
  | some _ =>
      let (count, store) := store.nextCount
      .ok { store with
        backupidEtag := store.backupidEtag.put key count
        backupkeyidBackup := store.backupkeyidBackup.put
          (textKey [userId, version, roomId, sessionId]) keyData }

/-- The prefix does not end with a separator. -/
def countKeys : Nat :=
  (store.backupkeyidBackup.scanPrefix (textKey [userId, version])).length

def getEtag : Except Failure String :=
  match store.backupidEtag.get (textKey [userId, version]) with
  | some count => .ok (toString count)
  | none => .error (.panic "Backup has no etag.")

def readEntry (reader : Reader) (row : Key × Data) :
    Option (reader.RoomId × String × Data) :=
  match fromSlice reader.debug [.ignore, .ignore, .str, .str] row.1 with
  | .ok [_, _, .component (.str roomId), .component (.str sessionId)] =>
      (parseChecked reader.isRoomId roomId).map (·, sessionId, row.2)
  | _ => none

def getAll : SortedTable reader.RoomId (SortedTable String Data) :=
  let rows := store.backupkeyidBackup.scanPrefix (textPrefix [userId, version])
  SortedTable.empty.putAllIn (rows.filterMap (readEntry reader))

def readSession (reader : Reader) (row : Key × Data) :
    Option (String × Data) :=
  match fromSlice reader.debug [.ignore, .ignore, .ignore, .str] row.1 with
  | .ok [_, _, _, .component (.str sessionId)] => some (sessionId, row.2)
  | _ => none

def getRoom : SortedTable String Data :=
  let rows := store.backupkeyidBackup.scanPrefix
    (textPrefix [userId, version, roomId])
  SortedTable.empty.putAll (rows.filterMap (readSession reader))

def getSession (sessionId : String) : Option Data :=
  store.backupkeyidBackup.get (textKey [userId, version, roomId, sessionId])

def deleteAllKeys : Store Algorithm Data :=
  { store with
    backupkeyidBackup :=
      store.backupkeyidBackup.erasePrefix (textPrefix [userId, version]) }

def deleteRoomKeys : Store Algorithm Data :=
  { store with
    backupkeyidBackup := store.backupkeyidBackup.erasePrefix
      (textPrefix [userId, version, roomId]) }

/-- The prefix does not end with a separator. -/
def deleteRoomKey (sessionId : String) : Store Algorithm Data :=
  { store with
    backupkeyidBackup := store.backupkeyidBackup.erasePrefix
      (textKey [userId, version, roomId, sessionId]) }

end Store

open Database (Key textKey textPrefix fromSlice strBytes)

@[ext] structure BackupId (reader : Reader) where
  userId : reader.UserId
  version : String
  deriving DecidableEq

@[ext] structure Session (reader : Reader) where
  backup : BackupId reader
  roomId : reader.RoomId
  sessionId : String
  deriving DecidableEq

section

variable (reader : Reader) (Algorithm Data : Type)

structure Backups where
  algorithms : EntryTable (BackupId reader) Algorithm
  entries : EntryTable (Session reader) Data

inductive Call where
  | createBackup (userId : reader.UserId) (algorithm : Algorithm)
  | updateBackup (backup : BackupId reader) (algorithm : Algorithm)
  | deleteBackup (backup : BackupId reader)
  | addKey (session : Session reader) (keyData : Data)
  | deleteAllKeys (backup : BackupId reader)
  | deleteRoomKeys (backup : BackupId reader) (roomId : reader.RoomId)
  | deleteRoomKey (session : Session reader)
  | getBackup (backup : BackupId reader)
  | countKeys (backup : BackupId reader)
  | getAll (backup : BackupId reader)
  | getRoom (backup : BackupId reader) (roomId : reader.RoomId)
  | getSession (session : Session reader)

inductive Answer where
  | done
  | version (version : String)
  | failed (failure : Failure)
  | backup (found : Option Algorithm)
  | count (keys : Nat)
  | rooms (rooms : SortedTable reader.RoomId (SortedTable String Data))
  | sessions (sessions : SortedTable String Data)
  | session (found : Option Data)

end

section

variable {reader : Reader} {Algorithm Data : Type}

namespace Store

def perform (store : Store Algorithm Data) : Call reader Algorithm Data →
      Answer reader Algorithm Data × Store Algorithm Data
  | .createBackup userId algorithm =>
      let created := store.createBackup userId algorithm
      (.version created.1, created.2)
  | .updateBackup backup algorithm =>
      match store.updateBackup backup.userId backup.version algorithm with
      | .ok updated => (.version updated.1, updated.2)
      | .error failure => (.failed failure, store)
  | .deleteBackup backup =>
      (.done, store.deleteBackup backup.userId backup.version)
  | .addKey session keyData =>
      match store.addKey session.backup.userId session.backup.version
          session.roomId session.sessionId keyData with
      | .ok added => (.done, added)
      | .error failure => (.failed failure, store)
  | .deleteAllKeys backup =>
      (.done, store.deleteAllKeys backup.userId backup.version)
  | .deleteRoomKeys backup roomId =>
      (.done, store.deleteRoomKeys backup.userId backup.version roomId)
  | .deleteRoomKey session =>
      (.done, store.deleteRoomKey session.backup.userId
        session.backup.version session.roomId session.sessionId)
  | .getBackup backup =>
      (.backup (store.getBackup backup.userId backup.version), store)
  | .countKeys backup =>
      (.count (store.countKeys backup.userId backup.version), store)
  | .getAll backup =>
      (.rooms (store.getAll backup.userId backup.version), store)
  | .getRoom backup roomId =>
      (.sessions (store.getRoom backup.userId backup.version roomId), store)
  | .getSession session =>
      (.session (store.getSession session.backup.userId
        session.backup.version session.roomId session.sessionId), store)

end Store

namespace Backups

variable (backups : Backups reader Algorithm Data)

def empty : Backups reader Algorithm Data := ⟨∅, ∅⟩

def after : Call reader Algorithm Data → Answer reader Algorithm Data →
      Backups reader Algorithm Data
  | .createBackup userId algorithm, .version version =>
      { backups with
        algorithms := backups.algorithms.insert ⟨userId, version⟩ algorithm }
  | .updateBackup backup algorithm, _ =>
      if backup ∈ backups.algorithms then
        { backups with
          algorithms := backups.algorithms.insert backup algorithm }
      else backups
  | .deleteBackup backup, _ =>
      { algorithms := backups.algorithms.erase backup
        entries := EntryTable.retain
          (fun session _ => decide (session.backup ≠ backup))
          backups.entries }
  | .addKey session keyData, _ =>
      if session.backup ∈ backups.algorithms then
        { backups with entries := backups.entries.insert session keyData }
      else backups
  | .deleteAllKeys backup, _ =>
      { backups with
        entries := EntryTable.retain
          (fun session _ => decide (session.backup ≠ backup))
          backups.entries }
  | .deleteRoomKeys backup roomId, _ =>
      { backups with
        entries := EntryTable.retain (fun session _ =>
          decide (¬ (session.backup = backup ∧ session.roomId = roomId)))
          backups.entries }
  | .deleteRoomKey session, _ =>
      { backups with entries := backups.entries.erase session }
  | _, _ => backups

def Tells : Call reader Algorithm Data → Answer reader Algorithm Data → Prop
  | .createBackup _ _, answer => ∃ version, answer = .version version
  | .updateBackup backup _, answer =>
      answer = if backup ∈ backups.algorithms then .version backup.version
        else .failed (.notFound "Tried to update nonexistent backup.")
  | .addKey session _, answer =>
      answer = if session.backup ∈ backups.algorithms then .done
        else .failed (.notFound "Tried to update nonexistent backup.")
  | .deleteBackup _, answer | .deleteAllKeys _, answer
  | .deleteRoomKeys _ _, answer | .deleteRoomKey _, answer => answer = .done
  | .getBackup backup, answer =>
      answer = .backup (backups.algorithms.lookup backup)
  | .countKeys backup, answer =>
      answer = .count (backups.entries.entries.countP fun entry =>
        decide (entry.1.backup = backup))
  | .getAll backup, answer =>
      ∃ rooms, answer = .rooms rooms ∧ rooms.Filled ∧
        ∀ roomId sessionId keyData, rooms.Holds (roomId, sessionId, keyData) ↔
            backups.entries.lookup ⟨backup, roomId, sessionId⟩ = some keyData
  | .getRoom backup roomId, answer =>
      ∃ sessions, answer = .sessions sessions ∧
        ∀ sessionId keyData, (sessionId, keyData) ∈ sessions ↔
          backups.entries.lookup ⟨backup, roomId, sessionId⟩ = some keyData
  | .getSession session, answer =>
      answer = .session (backups.entries.lookup session)

/-- No entry that is left out is taken for one that is named: a version that
goes on where the counted one ends, or a session id where the deleted one
ends. -/
def Unmixed : Call reader Algorithm Data → Prop
  | .countKeys backup => ∀ session ∈ backups.entries,
      session.backup.userId = backup.userId →
      strBytes backup.version <+: strBytes session.backup.version →
      session.backup.version = backup.version
  | .deleteRoomKey named => ∀ session ∈ backups.entries,
      session.backup = named.backup → session.roomId = named.roomId →
      strBytes named.sessionId <+: strBytes session.sessionId →
      session.sessionId = named.sessionId
  | _ => True

end Backups

def BackupId.key (backup : BackupId reader) : Key :=
  textKey [backup.userId, backup.version]

def Session.key (session : Session reader) : Key :=
  textKey [session.backup.userId, session.backup.version, session.roomId,
    session.sessionId]

structure Represents (store : Store Algorithm Data)
    (backups : Backups reader Algorithm Data) : Prop where
  algorithms : Encodes BackupId.key store.backupidAlgorithm backups.algorithms
  entries : Encodes Session.key store.backupkeyidBackup backups.entries

theorem Store.addKey_absent {store : Store Algorithm Data}
    {session : Session reader} {keyData : Data}
    (absent : store.getBackup session.backup.userId session.backup.version =
      none) :
    store.addKey session.backup.userId session.backup.version session.roomId
        session.sessionId keyData =
      .error (.notFound "Tried to update nonexistent backup.") := by
  unfold Store.getBackup at absent
  simp only [Store.addKey, absent]

theorem Store.addKey_ok {store added : Store Algorithm Data}
    {session : Session reader} {keyData : Data}
    (result : store.addKey session.backup.userId session.backup.version
      session.roomId session.sessionId keyData = .ok added) :
    added.backupkeyidBackup =
      store.backupkeyidBackup.put session.key keyData := by
  simp only [Store.addKey] at result
  cases found : store.backupidAlgorithm.get
      (textKey [session.backup.userId, session.backup.version]) with
  | none =>
      rw [found] at result
      cases result
  | some algorithm =>
      rw [found] at result
      rw [← Except.ok.inj result]
      rfl

theorem BackupId.key_injective : Function.Injective (@BackupId.key reader) := by
  intro one other same
  have texts : [one.userId.val, one.version] =
      [other.userId.val, other.version] := Database.textKey_inj rfl same
  simp only [cons.injEq, and_true] at texts
  obtain ⟨oneUser, oneVersion⟩ := one
  cases Subtype.ext texts.1
  cases texts.2
  rfl

theorem Session.key_injective : Function.Injective (@Session.key reader) := by
  intro one other same
  have texts : [one.backup.userId.val, one.backup.version, one.roomId.val,
      one.sessionId] = [other.backup.userId.val, other.backup.version,
        other.roomId.val, other.sessionId] := Database.textKey_inj rfl same
  simp only [cons.injEq, and_true] at texts
  obtain ⟨⟨oneUser, oneVersion⟩, oneRoom, oneSession⟩ := one
  cases Subtype.ext texts.1
  cases texts.2.1
  cases Subtype.ext texts.2.2.1
  cases texts.2.2.2
  rfl

section

variable {session named : Session reader} {backup : BackupId reader}
  {roomId : reader.RoomId}

theorem textPrefix_backup_iff :
    textPrefix [backup.userId, backup.version] <+: session.key ↔
      session.backup = backup := by
  have exact_ := @Database.textPrefix_prefix_iff
    [backup.userId.val, backup.version]
    [session.backup.userId.val, session.backup.version]
    [session.roomId.val, session.sessionId] rfl (cons_ne_nil _ _)
  refine exact_.trans ?_
  simp only [cons.injEq, and_true]
  constructor
  · intro ⟨users, versions⟩
    obtain ⟨⟨user, version⟩, _, _⟩ := session
    cases Subtype.ext users
    cases versions
    rfl
  · intro same
    rw [same]
    exact ⟨rfl, rfl⟩

theorem textPrefix_room_iff :
    textPrefix [backup.userId, backup.version, roomId] <+: session.key ↔
      session.backup = backup ∧ session.roomId = roomId := by
  have exact_ := @Database.textPrefix_prefix_iff
    [backup.userId.val, backup.version, roomId.val]
    [session.backup.userId.val, session.backup.version, session.roomId.val]
    [session.sessionId] rfl (cons_ne_nil _ _)
  refine exact_.trans ?_
  simp only [cons.injEq, and_true]
  constructor
  · intro ⟨users, versions, rooms⟩
    obtain ⟨⟨user, version⟩, room, _⟩ := session
    cases Subtype.ext users
    cases versions
    exact ⟨rfl, (Subtype.ext rooms).symm⟩
  · intro ⟨same, rooms⟩
    rw [same, rooms]
    exact ⟨rfl, rfl, rfl⟩

theorem backup_key_prefix_iff :
    backup.key <+: session.key ↔ session.backup.userId = backup.userId ∧
      strBytes backup.version <+: strBytes session.backup.version := by
  have exact_ := @Database.textKey_prefix_iff [backup.userId.val]
    [session.backup.userId.val] backup.version session.backup.version
    [session.roomId.val, session.sessionId] rfl
  refine exact_.trans (and_congr_left' ?_)
  simp only [cons.injEq, and_true]
  exact eq_comm.trans Subtype.ext_iff.symm

theorem session_key_prefix_iff :
    named.key <+: session.key ↔ session.backup = named.backup ∧
      session.roomId = named.roomId ∧
      strBytes named.sessionId <+: strBytes session.sessionId := by
  have exact_ := @Database.textKey_prefix_iff
    [named.backup.userId.val, named.backup.version, named.roomId.val]
    [session.backup.userId.val, session.backup.version, session.roomId.val]
    named.sessionId session.sessionId [] rfl
  have room := (@textPrefix_room_iff reader session named.backup
    named.roomId).symm.trans (@Database.textPrefix_prefix_iff
      [named.backup.userId.val, named.backup.version, named.roomId.val]
      [session.backup.userId.val, session.backup.version, session.roomId.val]
      [session.sessionId] rfl (cons_ne_nil _ _))
  refine exact_.trans ?_
  rw [← room, and_assoc]

end

end

open SortedTable EntryTable Store

section

variable {reader : Reader} {Algorithm Data : Type}
  {store : Store Algorithm Data} {backups : Backups reader Algorithm Data}
  {backup : BackupId reader} {session : Session reader}
  {roomId : reader.RoomId}

theorem parseChecked_val {valid : String → Bool} (text : Checked valid) :
    parseChecked valid text = some text := by
  unfold parseChecked
  rw [dif_pos text.property]

theorem readEntry_key (session : Session reader) (keyData : Data) :
    readEntry reader (session.key, keyData) =
      some (session.roomId, session.sessionId, keyData) := by
  have whole : fromSlice reader.debug [.ignore, .ignore, .str, .str]
      session.key = .ok [.ignored, .ignored, .component (.str session.roomId),
        .component (.str session.sessionId)] :=
    Database.fromSlice_textKey reader.debug
      [(.ignore, session.backup.userId), (.ignore, session.backup.version),
        (.str, session.roomId), (.str, session.sessionId)] (by simp) (by simp)
  unfold readEntry
  rw [whole]
  simp only [parseChecked_val, Option.map_some]

theorem readSession_key (session : Session reader) (keyData : Data) :
    readSession reader (session.key, keyData) =
      some (session.sessionId, keyData) := by
  have whole : fromSlice reader.debug [.ignore, .ignore, .ignore, .str]
      session.key = .ok [.ignored, .ignored, .ignored,
        .component (.str session.sessionId)] :=
    Database.fromSlice_textKey reader.debug
      [(.ignore, session.backup.userId), (.ignore, session.backup.version),
        (.ignore, session.roomId), (.str, session.sessionId)] (by simp)
      (by simp)
  unfold readSession
  rw [whole]

namespace Represents

variable (represents : Represents store backups)

include represents

theorem algorithm_get :
    store.backupidAlgorithm.get (textKey [backup.userId, backup.version]) =
      backups.algorithms.lookup backup :=
  represents.algorithms.get BackupId.key_injective

theorem scan_backup {row : Key × Data} :
    row ∈ store.backupkeyidBackup.scanPrefix
        (textPrefix [backup.userId, backup.version]) ↔
      ∃ roomId sessionId, row.1 = Session.key ⟨backup, roomId, sessionId⟩ ∧
        backups.entries.lookup ⟨backup, roomId, sessionId⟩ = some row.2 := by
  rw [mem_scanPrefix]
  constructor
  · intro ⟨member, starts⟩
    obtain ⟨⟨stored, roomId, sessionId⟩, isKey, found⟩ :=
      (represents.entries row.1 row.2).mp member
    rw [← isKey] at starts
    cases textPrefix_backup_iff.mp starts
    exact ⟨roomId, sessionId, isKey.symm, found⟩
  · intro ⟨roomId, sessionId, isKey, found⟩
    refine ⟨(represents.entries row.1 row.2).mpr ⟨_, isKey.symm, found⟩, ?_⟩
    rw [isKey]
    exact textPrefix_backup_iff.mpr rfl

theorem scan_room {row : Key × Data} : row ∈ store.backupkeyidBackup.scanPrefix
        (textPrefix [backup.userId, backup.version, roomId]) ↔
      ∃ sessionId, row.1 = Session.key ⟨backup, roomId, sessionId⟩ ∧
        backups.entries.lookup ⟨backup, roomId, sessionId⟩ = some row.2 := by
  rw [mem_scanPrefix]
  constructor
  · intro ⟨member, starts⟩
    obtain ⟨⟨stored, inRoom, sessionId⟩, isKey, found⟩ :=
      (represents.entries row.1 row.2).mp member
    rw [← isKey] at starts
    obtain ⟨sameBackup, sameRoom⟩ := textPrefix_room_iff.mp starts
    cases sameBackup
    cases sameRoom
    exact ⟨sessionId, isKey.symm, found⟩
  · intro ⟨sessionId, isKey, found⟩
    refine ⟨(represents.entries row.1 row.2).mpr ⟨_, isKey.symm, found⟩, ?_⟩
    rw [isKey]
    exact textPrefix_room_iff.mpr ⟨rfl, rfl⟩

theorem getAll_tells : backups.Tells (.getAll backup)
    (.rooms (store.getAll backup.userId backup.version)) := by
  refine ⟨_, rfl, SortedTable.Filled.putAllIn ?_ _, ?_⟩
  · intro outer table member
    exact absurd member not_mem_empty
  intro roomId sessionId keyData
  have listed : ∀ row : reader.RoomId × String × Data,
      row ∈ (store.backupkeyidBackup.scanPrefix
        (textPrefix [backup.userId, backup.version])).filterMap
          (readEntry reader) ↔
        backups.entries.lookup ⟨backup, row.1, row.2.1⟩ = some row.2.2 := by
    intro row
    refine @mem_filterMap_of_reads (reader.RoomId × String) _ _ _ _
      (fun part => Session.key ⟨backup, part.1, part.2⟩)
      (fun part => backups.entries.lookup ⟨backup, part.1, part.2⟩) _
      (fun part keyData => (part.1, part.2, keyData)) ?_
      (fun _ _ => readEntry_key _ _) ?_ (row.1, row.2.1) row.2.2
    · exact fun _ _ => represents.scan_backup.trans Prod.exists'.symm
    · intro ⟨_, _⟩ ⟨_, _⟩ _ _ same
      cases same
      exact ⟨rfl, rfl⟩
  constructor
  · intro held
    rcases holds_of_holds_putAllIn held with nothing | member
    · obtain ⟨_, member, _⟩ := nothing
      exact absurd member not_mem_empty
    · exact (listed _).mp member
  · intro found
    refine holds_putAllIn ?_ (.inr ((listed _).mpr found))
    intro ⟨otherRoom, otherSession, otherData⟩ member same
    have stored := (listed _).mp member
    cases same
    rw [found] at stored
    rw [Option.some.inj stored]

theorem getRoom_tells : backups.Tells (.getRoom backup roomId)
    (.sessions (store.getRoom backup.userId backup.version roomId)) := by
  refine ⟨_, rfl, ?_⟩
  intro sessionId keyData
  have listed : ∀ row : String × Data, row ∈ (store.backupkeyidBackup.scanPrefix
        (textPrefix [backup.userId, backup.version, roomId])).filterMap
          (readSession reader) ↔
        backups.entries.lookup ⟨backup, roomId, row.1⟩ = some row.2 := by
    intro row
    refine @mem_filterMap_of_reads String _ _ _ _
      (fun sessionId => Session.key ⟨backup, roomId, sessionId⟩)
      (fun sessionId => backups.entries.lookup ⟨backup, roomId, sessionId⟩) _
      Prod.mk ?_ (fun _ _ => readSession_key _ _) ?_ row.1 row.2
    · exact fun _ _ => represents.scan_room
    · intro first second _ _ same
      cases same
      exact ⟨rfl, rfl⟩
  constructor
  · intro held
    rcases mem_or_mem_of_mem_putAll held with nothing | member
    · exact absurd nothing not_mem_empty
    · exact (listed _).mp member
  · intro found
    refine mem_putAll ?_ (.inr ((listed _).mpr found))
    intro ⟨otherSession, otherData⟩ member same
    have stored := (listed _).mp member
    cases same
    rw [found] at stored
    rw [Option.some.inj stored]

theorem countKeys_tells_iff : backups.Tells (.countKeys backup)
      (.count (store.countKeys backup.userId backup.version)) ↔
    backups.Unmixed (.countKeys backup) := by
  have counted : store.countKeys backup.userId backup.version =
      backups.entries.entries.countP fun entry =>
        backup.key.isPrefixOf entry.1.key :=
    represents.entries.length_scanPrefix Session.key_injective
  have exact_ := @countP_eq_countP_iff ((_ : Session reader) × Data)
    (fun entry => decide (entry.1.backup = backup))
    (fun entry => backup.key.isPrefixOf entry.1.key)
    backups.entries.entries ?_
  · refine (Iff.trans ?_ exact_).trans ?_
    · rw [← counted]
      exact ⟨Answer.count.inj, congrArg Answer.count⟩
    · simp only [List.isPrefixOf_iff_prefix, backup_key_prefix_iff,
        decide_eq_true_eq]
      constructor
      · intro only session stored users versions
        obtain ⟨keyData, found⟩ := mem_iff_lookup.mp stored
        exact congrArg BackupId.version (only ⟨session, keyData⟩
          (lookup_eq_some.mp found) ⟨users, versions⟩)
      · intro unmixed ⟨session, keyData⟩ member ⟨users, versions⟩
        have stored := mem_iff_lookup.mpr ⟨keyData, lookup_eq_some.mpr member⟩
        exact BackupId.ext users (unmixed session stored users versions)
  · intro entry _ same
    rw [List.isPrefixOf_iff_prefix, backup_key_prefix_iff,
      of_decide_eq_true same]
    exact ⟨rfl, List.prefix_rfl⟩

theorem getSession_tells : backups.Tells (.getSession session)
    (.session (store.getSession session.backup.userId session.backup.version
      session.roomId session.sessionId)) :=
  congrArg Answer.session (represents.entries.get Session.key_injective)

theorem getBackup_tells : backups.Tells (.getBackup backup)
    (.backup (store.getBackup backup.userId backup.version)) :=
  congrArg Answer.backup represents.algorithm_get

theorem createBackup (userId : reader.UserId) (algorithm : Algorithm) :
    Represents (store.createBackup userId algorithm).2
      (backups.after (.createBackup userId algorithm)
        (.version (store.createBackup userId algorithm).1)) := by
  generalize created : store.createBackup userId algorithm = result
  have stored : result.2.backupidAlgorithm = store.backupidAlgorithm.put
      (BackupId.key ⟨userId, result.1⟩) algorithm := by
    rw [← created]
    rfl
  have kept : result.2.backupkeyidBackup = store.backupkeyidBackup := by
    rw [← created]
    rfl
  refine ⟨?_, kept ▸ represents.entries⟩
  rw [stored]
  exact represents.algorithms.put BackupId.key_injective

theorem eraseBackup {kept : Session reader → Data → Bool}
    (others : ∀ session keyData, kept session keyData =
      decide (session.backup ≠ backup)) :
    Encodes Session.key (store.backupkeyidBackup.erasePrefix
        (textPrefix [backup.userId, backup.version]))
      (backups.entries.retain kept) := by
  refine (represents.entries.erasePrefix_iff Session.key_injective).mpr ?_
  intro session keyData _
  rw [others, decide_eq_true_eq, textPrefix_backup_iff]

theorem deleteBackup :
    Represents (store.deleteBackup backup.userId backup.version)
      (backups.after (.deleteBackup backup) .done) :=
  ⟨represents.algorithms.erase BackupId.key_injective,
    represents.eraseBackup fun _ _ => rfl⟩

theorem deleteAllKeys :
    Represents (store.deleteAllKeys backup.userId backup.version)
      (backups.after (.deleteAllKeys backup) .done) :=
  ⟨represents.algorithms, represents.eraseBackup fun _ _ => rfl⟩

theorem deleteRoomKeys :
    Represents (store.deleteRoomKeys backup.userId backup.version roomId)
      (backups.after (.deleteRoomKeys backup roomId) .done) := by
  refine ⟨represents.algorithms, ?_⟩
  refine (represents.entries.erasePrefix_iff Session.key_injective).mpr ?_
  intro session keyData _
  rw [decide_eq_true_eq, textPrefix_room_iff]

theorem deleteRoomKey_iff :
    Represents (store.deleteRoomKey session.backup.userId
        session.backup.version session.roomId session.sessionId)
      (backups.after (.deleteRoomKey session) .done) ↔
    backups.Unmixed (.deleteRoomKey session) := by
  have exact_ := represents.entries.erasePrefix_erase_iff
    Session.key_injective (List.prefix_rfl : session.key <+: session.key)
  have named : Represents (store.deleteRoomKey session.backup.userId
        session.backup.version session.roomId session.sessionId)
      (backups.after (.deleteRoomKey session) .done) ↔
      Encodes Session.key (store.backupkeyidBackup.erasePrefix session.key)
        (backups.entries.erase session) :=
    ⟨Represents.entries, fun encodes => ⟨represents.algorithms, encodes⟩⟩
  refine (named.trans exact_).trans ?_
  simp only [session_key_prefix_iff]
  constructor
  · intro only other stored sameBackup sameRoom longer
    exact congrArg Session.sessionId
      (only other stored ⟨sameBackup, sameRoom, longer⟩)
  · intro unmixed other stored ⟨sameBackup, sameRoom, longer⟩
    exact Session.ext sameBackup sameRoom
      (unmixed other stored sameBackup sameRoom longer)

theorem updateBackup (algorithm : Algorithm) :
    backups.Tells (.updateBackup backup algorithm)
        (store.perform (.updateBackup backup algorithm)).1 ∧
      Represents (store.perform (.updateBackup backup algorithm)).2
        (backups.after (.updateBackup backup algorithm)
          (store.perform (.updateBackup backup algorithm)).1) := by
  unfold perform Store.updateBackup Backups.Tells Backups.after
  simp only [represents.algorithm_get]
  cases found : backups.algorithms.lookup backup with
  | none =>
      have missing : backup ∉ backups.algorithms :=
        AList.lookup_eq_none.mp found
      simp only [missing, if_false]
      exact ⟨trivial, represents⟩
  | some old =>
      have stored : backup ∈ backups.algorithms :=
        mem_iff_lookup.mpr ⟨old, found⟩
      simp only [stored, if_true]
      exact ⟨trivial, represents.algorithms.put BackupId.key_injective,
        represents.entries⟩

theorem addKey (keyData : Data) : backups.Tells (.addKey session keyData)
        (store.perform (.addKey session keyData)).1 ∧
      Represents (store.perform (.addKey session keyData)).2
        (backups.after (.addKey session keyData)
          (store.perform (.addKey session keyData)).1) := by
  unfold perform Store.addKey Backups.Tells Backups.after
  simp only [represents.algorithm_get]
  cases found : backups.algorithms.lookup session.backup with
  | none =>
      have missing : session.backup ∉ backups.algorithms :=
        AList.lookup_eq_none.mp found
      simp only [missing, if_false]
      exact ⟨trivial, represents⟩
  | some old =>
      have stored : session.backup ∈ backups.algorithms :=
        mem_iff_lookup.mpr ⟨old, found⟩
      simp only [stored, if_true]
      exact ⟨trivial, represents.algorithms,
        represents.entries.put Session.key_injective⟩

end Represents

def Agrees (store : Store Algorithm Data)
    (backups : Backups reader Algorithm Data)
    (call : Call reader Algorithm Data) : Prop :=
  backups.Tells call (store.perform call).1 ∧ Represents (store.perform call).2
      (backups.after call (store.perform call).1)

theorem Represents.agrees_iff (represents : Represents store backups)
    (call : Call reader Algorithm Data) :
    Agrees store backups call ↔ backups.Unmixed call := by
  cases call with
  | createBackup userId algorithm =>
      exact iff_of_true ⟨⟨_, rfl⟩, represents.createBackup userId algorithm⟩
        trivial
  | updateBackup backup algorithm =>
      exact iff_of_true (represents.updateBackup algorithm) trivial
  | deleteBackup backup =>
      exact iff_of_true ⟨rfl, represents.deleteBackup⟩ trivial
  | addKey session keyData =>
      exact iff_of_true (represents.addKey keyData) trivial
  | deleteAllKeys backup =>
      exact iff_of_true ⟨rfl, represents.deleteAllKeys⟩ trivial
  | deleteRoomKeys backup roomId =>
      exact iff_of_true ⟨rfl, represents.deleteRoomKeys⟩ trivial
  | deleteRoomKey session =>
      rw [← represents.deleteRoomKey_iff]
      exact and_iff_right rfl
  | getBackup backup =>
      exact iff_of_true ⟨represents.getBackup_tells, represents⟩ trivial
  | countKeys backup =>
      rw [← represents.countKeys_tells_iff]
      exact and_iff_left represents
  | getAll backup =>
      exact iff_of_true ⟨represents.getAll_tells, represents⟩ trivial
  | getRoom backup roomId =>
      exact iff_of_true ⟨represents.getRoom_tells, represents⟩ trivial
  | getSession session =>
      exact iff_of_true ⟨represents.getSession_tells, represents⟩ trivial

def Behaves : Store Algorithm Data → Backups reader Algorithm Data →
    List (Call reader Algorithm Data) → Prop
  | _, _, [] => True
  | store, backups, call :: rest =>
      Agrees store backups call ∧ Behaves (store.perform call).2
          (backups.after call (store.perform call).1) rest

def UnmixedRun : Store Algorithm Data → Backups reader Algorithm Data →
    List (Call reader Algorithm Data) → Prop
  | _, _, [] => True
  | store, backups, call :: rest =>
      backups.Unmixed call ∧ UnmixedRun (store.perform call).2
          (backups.after call (store.perform call).1) rest

theorem Represents.behaves_iff (represents : Represents store backups)
    (calls : List (Call reader Algorithm Data)) :
    Behaves store backups calls ↔ UnmixedRun store backups calls := by
  induction calls generalizing store backups with
  | nil => exact Iff.rfl
  | cons call rest inductionHypothesis =>
      unfold Behaves UnmixedRun
      rw [represents.agrees_iff call]
      refine and_congr_right fun unmixed => ?_
      exact inductionHypothesis ((represents.agrees_iff call).mpr unmixed).2

theorem Represents.empty (counter : Nat) :
    Represents (.empty counter : Store Algorithm Data)
      (.empty : Backups reader Algorithm Data) :=
  ⟨Encodes.empty, Encodes.empty⟩

/-- The service is the map from sessions to keys as long as no counted version
and no deleted session id is the beginning of another. -/
theorem keyBackups_behaves_iff (reader : Reader) (Algorithm Data : Type)
    (counter : Nat) (calls : List (Call reader Algorithm Data)) :
    Behaves (.empty counter) .empty calls ↔
      UnmixedRun (.empty counter) .empty calls :=
  (Represents.empty counter).behaves_iff calls

end

/-! Alice has a session that begins with the id of another, and eleven counts
make her a version that begins with the number of another. -/

namespace AliceBackups

def reader : Reader where
  debug := true
  isUserId text := text.toList.head? = some '@'
  isRoomId text := text.toList.head? = some '!'

def alice : reader.UserId := ⟨"@alice:a", by decide +kernel⟩

def session (version sessionId : String) : Session reader where
  backup := ⟨alice, version⟩
  roomId := ⟨"!room:a", by decide +kernel⟩
  sessionId

def deleting : List (Call reader Unit Nat) :=
  [.createBackup alice (), .addKey (session "1" "ab") 7,
    .deleteRoomKey (session "1" "a"), .getSession (session "1" "ab")]

def counting : List (Call reader Unit Nat) :=
  List.replicate 6 (.createBackup alice ()) ++
    [.addKey (session "11" "ab") 7, .countKeys (session "1" "ab").backup]

/-- The key under the longer session id is deleted as well, and the key in the
later backup is counted in the first one. -/
theorem beginnings_mix_up : ¬ Behaves (.empty 0) .empty deleting ∧
      ¬ Behaves (.empty 0) .empty counting := by
  constructor
  · intro behaves
    have told := Answer.session.inj behaves.2.2.2.1.1
    exact absurd told (by decide +kernel)
  · intro behaves
    have told := Answer.count.inj behaves.2.2.2.2.2.2.2.1.1
    exact absurd told (by decide +kernel)

end AliceBackups

end ArcanaServer.KeyBackups
