import ArcanaServer.Keys.Tables
import ArcanaServer.Library.Handout
import ArcanaServer.Library.Trace

namespace ArcanaServer.Keys

open Library ArcanaServer.Matrix List Function

abbrev OneTimeRow := UserId × DeviceId × OneTimeKeyId

/-- The order of the rows is that of their serialized keys. -/
abbrev RowOrder := OneTimeRow → OneTimeRow → Bool

def putOneTimeKey (precedes : RowOrder) (key : OneTimeRow) (value : Json)
    (rows : List (OneTimeRow × Json)) : List (OneTimeRow × Json) :=
  let others := rows.filter (fun row => row.1 != key)
  others.takeWhile (fun row => precedes row.1 key) ++
    (key, value) :: others.dropWhile (fun row => precedes row.1 key)

def addOneTimeKey (precedes : RowOrder) (userId : UserId) (deviceId : DeviceId)
    (oneTimeKeyKey : OneTimeKeyId) (oneTimeKeyValue : Json) :
    EStateM Error KeyTables Unit := do
  refuseIf (((← get).userdeviceidMetadata userId).lookup deviceId).isNone
    (.database "User does not exist or device has no metadata.")
  modify (fun tables => { tables with
    onetimekeyidOnetimekeys := putOneTimeKey precedes
      (userId, deviceId, oneTimeKeyKey) oneTimeKeyValue
      tables.onetimekeyidOnetimekeys })
  modify (fun tables => { tables with
    counter := tables.counter + 1
    useridLastonetimekeyupdate := Function.update
      tables.useridLastonetimekeyupdate userId (some (tables.counter + 1)) })

namespace KeyTables

def countTake (tables : KeyTables) (userId : UserId) : KeyTables :=
  { tables with
    counter := tables.counter + 1
    useridLastonetimekeyupdate := Function.update
      tables.useridLastonetimekeyupdate userId (some (tables.counter + 1)) }

def removeOneTimeKey (tables : KeyTables) (key : OneTimeRow) : KeyTables :=
  { tables with
    onetimekeyidOnetimekeys := tables.onetimekeyidOnetimekeys.filter
      (fun other => other.1 != key) }

end KeyTables

structure TakeCall where
  key : OneTimeRow
  value : Json
  upload : Nat

/-- `origin` is the number of the upload that wrote the row under a key, and
`handedOut` are the numbers of the uploads that were returned. -/
structure ClaimWorld where
  tables : KeyTables
  uploads : Nat
  origin : OneTimeRow → Nat
  takes : List TakeCall
  handedOut : List Nat

inductive ClaimAction where
  | add (userId : UserId) (deviceId : DeviceId) (keyId : OneTimeKeyId)
      (value : Json)
  | take (userId : UserId) (deviceId : DeviceId) (algorithm : String)
  | remove (index : Nat)

inductive ClaimOutcome where
  | uploaded
  | returned (keyId : OneTimeKeyId) (value : Json)
  | refused (error : Error)
  | nothing

namespace ClaimWorld

def start (tables : KeyTables) : ClaimWorld where
  tables := { tables with onetimekeyidOnetimekeys := [] }
  uploads := 0
  origin := fun _ => 0
  takes := []
  handedOut := []

def step (precedes : RowOrder) (world : ClaimWorld) :
    ClaimAction → ClaimWorld × ClaimOutcome
  | .add userId deviceId keyId value =>
      match addOneTimeKey precedes userId deviceId keyId value
          world.tables with
      | .error error tables => ({ world with tables }, .refused error)
      | .ok _ tables =>
          ({ world with
            tables
            uploads := world.uploads + 1
            origin := Function.update world.origin (userId, deviceId, keyId)
              world.uploads }, .uploaded)
  | .take userId deviceId algorithm =>
      let tables := world.tables.countTake userId
      match tables.oneTimeKeyFor userId deviceId algorithm with
      | none =>
          ({ world with tables },
            .refused (.notFound "No one-time-key found"))
      | some row =>
          ({ world with
            tables
            takes := world.takes ++ [⟨row.1, row.2, world.origin row.1⟩] },
            .nothing)
  | .remove index =>
      match world.takes[index]? with
      | none => (world, .nothing)
      | some call =>
          ({ world with
            tables := world.tables.removeOneTimeKey call.key
            takes := world.takes.eraseIdx index
            handedOut := world.handedOut ++ [call.upload] },
            .returned call.key.2.2 call.value)

variable (world : ClaimWorld)

def HandedOutOnce : Prop := world.handedOut.Nodup

def Apart : ClaimAction → Prop
  | .take userId deviceId algorithm =>
      ∀ row ∈ world.tables.oneTimeKeyFor userId deviceId algorithm,
        ∀ call ∈ world.takes, call.upload ≠ world.origin row.1
  | .add _ _ _ _ | .remove _ => True

instance (world : ClaimWorld) : DecidablePred world.Apart
  | .take userId deviceId algorithm => inferInstanceAs (Decidable
      (∀ row ∈ world.tables.oneTimeKeyFor userId deviceId algorithm,
        ∀ call ∈ world.takes, call.upload ≠ world.origin row.1))
  | .add _ _ _ _ | .remove _ => isTrue trivial

def handout : Handout Nat where
  known := { upload | upload < world.uploads }
  stock := { upload | ∃ row ∈ world.tables.onetimekeyidOnetimekeys,
    world.origin row.1 = upload }
  seen := world.takes.map TakeCall.upload
  given := world.handedOut

structure Inv : Prop where
  single : world.handout.Single
  place : ∀ row ∈ world.tables.onetimekeyidOnetimekeys,
    ∀ other ∈ world.tables.onetimekeyidOnetimekeys,
      world.origin row.1 = world.origin other.1 → row.1 = other.1
  calls : ∀ call ∈ world.takes, ∀ row ∈ world.tables.onetimekeyidOnetimekeys,
      world.origin row.1 = call.upload → row.1 = call.key

theorem mem_putOneTimeKey {precedes : RowOrder} {key : OneTimeRow}
    {value : Json} {rows : List (OneTimeRow × Json)} {row : OneTimeRow × Json} :
    row ∈ putOneTimeKey precedes key value rows ↔
      row = (key, value) ∨ row ∈ rows ∧ row.1 ≠ key := by
  have others : row ∈ rows ∧ row.1 ≠ key ↔
      row ∈ rows.filter (fun row => row.1 != key) := by
    rw [mem_filter, bne_iff_ne]
  rw [others]
  unfold putOneTimeKey
  generalize rows.filter (fun row => row.1 != key) = kept
  have parts : row ∈ kept ↔
      row ∈ kept.takeWhile (fun row => precedes row.1 key) ∨
        row ∈ kept.dropWhile (fun row => precedes row.1 key) := by
    rw [← mem_append, takeWhile_append_dropWhile]
  rw [parts, mem_append, mem_cons]
  exact or_left_comm

section

variable {world : ClaimWorld}

theorem Inv.countTake (inv : world.Inv) (userId : UserId) :
    Inv { world with tables := world.tables.countTake userId } :=
  ⟨inv.single, inv.place, inv.calls⟩

theorem Inv.add (inv : world.Inv) (precedes : RowOrder) (key : OneTimeRow)
    (value : Json) {tables : KeyTables}
    (rows : tables.onetimekeyidOnetimekeys = putOneTimeKey precedes key value
      world.tables.onetimekeyidOnetimekeys) :
    Inv { world with
      tables
      uploads := world.uploads + 1
      origin := update world.origin key world.uploads } := by
  have below : ∀ row ∈ world.tables.onetimekeyidOnetimekeys,
      world.origin row.1 < world.uploads :=
    fun row member => inv.single.stocked ⟨row, member, rfl⟩
  have cases_ : ∀ row ∈ tables.onetimekeyidOnetimekeys,
      (row.1 = key ∧ update world.origin key world.uploads row.1 =
          world.uploads) ∨
      (row ∈ world.tables.onetimekeyidOnetimekeys ∧
        update world.origin key world.uploads row.1 =
          world.origin row.1) := by
    intro row member
    rw [rows] at member
    rcases mem_putOneTimeKey.mp member with new | old
    · rw [new]
      exact .inl ⟨rfl, update_self _ _ _⟩
    · exact .inr ⟨old.1, update_of_ne old.2 _ _⟩
  refine ⟨inv.single.step (.supply world.uploads (Nat.lt_irrefl _)
    (fun _ => Nat.lt_succ_of_lt) (Nat.lt_succ_self _) ?_), ?_, ?_⟩
  · rintro upload ⟨row, member, same⟩
    rcases cases_ row member with new | old
    · exact .inl (same.symm.trans new.2)
    · exact .inr ⟨row, old.1, old.2.symm.trans same⟩
  · intro row member other also same
    simp only at same
    rcases cases_ row member with new | old
    · rcases cases_ other also with newer | old
      · exact new.1.trans newer.1.symm
      · rw [new.2, old.2] at same
        exact absurd same.symm (Nat.ne_of_lt (below other old.1))
    · rcases cases_ other also with new | older
      · rw [new.2, old.2] at same
        exact absurd same (Nat.ne_of_lt (below row old.1))
      · rw [old.2, older.2] at same
        exact inv.place row old.1 other older.1 same
  · intro call isCall row member same
    simp only at same
    rcases cases_ row member with new | old
    · have known := inv.single.known call.upload
        (mem_append_left _ (mem_map_of_mem isCall))
      rw [new.2] at same
      exact absurd same.symm (Nat.ne_of_lt known)
    · rw [old.2] at same
      exact inv.calls call isCall row old.1 same

theorem Inv.take (inv : world.Inv) {userId : UserId} {deviceId : DeviceId}
    {algorithm : String} {row : OneTimeRow × Json}
    (found : world.tables.oneTimeKeyFor userId deviceId algorithm = some row)
    (apart : world.Apart (.take userId deviceId algorithm)) :
    Inv { world with
      takes := world.takes ++ [⟨row.1, row.2, world.origin row.1⟩] } := by
  have stored : row ∈ world.tables.onetimekeyidOnetimekeys :=
    List.mem_of_find?_eq_some found
  have unseen : world.origin row.1 ∉ world.handout.seen := by
    intro member
    obtain ⟨call, isCall, same⟩ := mem_map.mp member
    exact apart row found call isCall same
  refine ⟨?_, inv.place, ?_⟩
  · have next := inv.single.step
      (.see (world.origin row.1) ⟨row, stored, rfl⟩ unseen)
    simpa [handout] using next
  · intro call member other isOther same
    rcases mem_append.mp member with old | new
    · exact inv.calls call old other isOther same
    · cases mem_singleton.mp new
      exact inv.place other isOther row stored same

theorem Inv.remove (inv : world.Inv) {index : Nat} {call : TakeCall}
    (found : world.takes[index]? = some call) :
    Inv { world with
      tables := world.tables.removeOneTimeKey call.key
      takes := world.takes.eraseIdx index
      handedOut := world.handedOut ++ [call.upload] } := by
  have kept : ∀ row ∈
      (world.tables.removeOneTimeKey call.key).onetimekeyidOnetimekeys,
      row ∈ world.tables.onetimekeyidOnetimekeys ∧ row.1 ≠ call.key := by
    intro row member
    obtain ⟨old, differs⟩ := mem_filter.mp member
    exact ⟨old, by simpa using differs⟩
  refine ⟨?_, ?_, ?_⟩
  · have next := inv.single.step (@Handout.Step.take _ world.handout
      { upload | ∃ row ∈
        (world.tables.removeOneTimeKey call.key).onetimekeyidOnetimekeys,
        world.origin row.1 = upload } index call.upload
      (by simp [handout, found]) ?_ ?_)
    · simpa [handout, eraseIdx_map] using next
    · rintro upload ⟨row, member, same⟩
      exact ⟨row, (kept row member).1, same⟩
    · rintro ⟨row, member, same⟩
      obtain ⟨old, differs⟩ := kept row member
      exact differs (inv.calls call (mem_of_getElem? found) row old same)
  · intro row member other also same
    exact inv.place row (kept row member).1 other (kept other also).1 same
  · intro other member row isRow same
    exact inv.calls other (mem_of_mem_eraseIdx member) row
      (kept row isRow).1 same

theorem addOneTimeKey_run (precedes : RowOrder) (userId : UserId)
    (deviceId : DeviceId) (keyId : OneTimeKeyId) (value : Json)
    (tables : KeyTables) :
    addOneTimeKey precedes userId deviceId keyId value tables =
      if ((tables.userdeviceidMetadata userId).lookup deviceId).isNone then
        .error (.database "User does not exist or device has no metadata.")
          tables
      else .ok () (KeyTables.countTake { tables with
        onetimekeyidOnetimekeys := putOneTimeKey precedes
          (userId, deviceId, keyId) value tables.onetimekeyidOnetimekeys }
        userId) := by
  have steps : addOneTimeKey precedes userId deviceId keyId value tables =
      (do
        refuseIf ((tables.userdeviceidMetadata userId).lookup deviceId).isNone
          (.database "User does not exist or device has no metadata.")
        modify (fun tables => { tables with
          onetimekeyidOnetimekeys := putOneTimeKey precedes
            (userId, deviceId, keyId) value tables.onetimekeyidOnetimekeys })
        modify (fun tables => tables.countTake userId) :
        EStateM Error KeyTables Unit) tables := rfl
  rw [steps]
  unfold refuseIf
  split
  · rfl
  · rfl

theorem Inv.step (inv : world.Inv) (precedes : RowOrder)
    {action : ClaimAction} (apart : world.Apart action) :
    (world.step precedes action).1.Inv := by
  cases action with
  | add userId deviceId keyId value =>
      simp only [ClaimWorld.step]
      rw [addOneTimeKey_run]
      split
      next refused =>
        split at refused
        · cases refused
          exact inv
        · cases refused
      next accepted =>
        split at accepted
        · cases accepted
        · cases accepted
          exact inv.add precedes (userId, deviceId, keyId) value rfl
  | take userId deviceId algorithm =>
      simp only [ClaimWorld.step]
      split
      · exact inv.countTake userId
      next row found =>
        exact (inv.countTake userId).take found apart
  | remove index =>
      simp only [ClaimWorld.step]
      split
      · exact inv
      next call found => exact inv.remove found

end

theorem inv_start (tables : KeyTables) : (start tables).Inv where
  single := {
    nodup := nodup_nil
    known := fun _ member => by cases member
    stocked := fun _ ⟨_, member, _⟩ => by cases member
    gone := fun _ member => by cases member }
  place := fun _ member => by cases member
  calls := fun _ member => by cases member

theorem handedOutOnce_of_apart {precedes : RowOrder} {tables : KeyTables}
    {history : List (Entry ClaimWorld ClaimAction ClaimOutcome)}
    {world : ClaimWorld}
    (reaches : Reaches (step precedes) (start tables) history world)
    (apart : Always (fun _ entry => entry.before.Apart entry.input)
      history) : world.HandedOutOnce := by
  have inv : world.Inv := by
    refine reaches.invariant (fun _ world => world.Inv) (inv_start tables) ?_
      apart
    exact fun _ _ _ inv apart => inv.step precedes apart
  exact inv.single.given_nodup

end ClaimWorld

namespace OneDevice

def tables : KeyTables where
  keyidKey _ := none
  useridMasterkeyid _ := none
  useridSelfsigningkeyid _ := none
  useridUsersigningkeyid _ := none
  userdeviceidMetadata _ := [("device", ⟨"device", none⟩)]
  onetimekeyidOnetimekeys := []
  useridLastonetimekeyupdate _ := none
  counter := 0

def byName : RowOrder := fun row other => row.2.2.name < other.2.2.name

def upload (name : String) : ClaimAction :=
  .add "@alice:server" "device" ⟨"curve25519", name⟩ (.str name)

def claim : ClaimAction := .take "@alice:server" "device" "curve25519"

def apart : List ClaimAction :=
  [upload "a", upload "b", claim, .remove 0, claim, .remove 0]

theorem apart_handedOutOnce :
    (run (ClaimWorld.step byName) (.start tables) apart).2.handedOut = [0, 1] ∧
      (run (ClaimWorld.step byName) (.start tables) apart).2.HandedOutOnce := by
  refine ⟨by decide +kernel, ClaimWorld.handedOutOnce_of_apart
    (reaches_run (ClaimWorld.step byName) (.start tables) apart)
    (Always.of_forall_mem ?_)⟩
  decide +kernel

def crossed : List ClaimAction :=
  [upload "a", upload "b", claim, claim, .remove 0, .remove 0]

theorem crossed_handedOutTwice :
    Reaches (ClaimWorld.step byName) (.start tables)
        (run (ClaimWorld.step byName) (.start tables) crossed).1
        (run (ClaimWorld.step byName) (.start tables) crossed).2 ∧
      ¬ (run (ClaimWorld.step byName) (.start tables)
        crossed).2.HandedOutOnce := by
  refine ⟨reaches_run _ _ crossed, ?_⟩
  unfold ClaimWorld.HandedOutOnce
  decide +kernel

end OneDevice

end ArcanaServer.Keys
