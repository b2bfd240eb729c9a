import ArcanaServer.Keys.Confined
import ArcanaServer.Library.Settles

namespace ArcanaServer.Keys

open Library ArcanaServer.Matrix List Prod

section

variable (viewer : Viewer) (tables : KeyTables)

def shownKeys (userId : UserId) (deviceId : DeviceId) : Option Json := do
  let keys ← tables.keyidKey (userId, deviceId)
  let metadata ← (tables.userdeviceidMetadata userId).lookup deviceId
  addUnsignedDeviceDisplayName keys metadata viewer.includeDisplayNames

def KeyTables.hasKeys (userId : UserId) (deviceId : DeviceId) : Bool :=
  (tables.keyidKey (userId, deviceId)).isSome

variable (userId : UserId) (deviceIds : List DeviceId)

def requestedDevices : List DeviceId :=
  if deviceIds.isEmpty then (tables.userdeviceidMetadata userId).map fst
  else deviceIds

def Requested (input : DeviceKeysInput) (userId : UserId)
    (deviceId : DeviceId) : Prop :=
  ∃ deviceIds, (userId, deviceIds) ∈ input ∧
    deviceId ∈ requestedDevices tables userId deviceIds

/-- The container holds the keys of exactly those devices that are requested
and have keys. -/
structure HoldsRequested (input : DeviceKeysInput) (userId : UserId)
    (container : DeviceKeys) : Prop where
  devices : ∀ deviceId, (∃ keys, (deviceId, keys) ∈ container) ↔
    Requested tables input userId deviceId ∧
      tables.hasKeys userId deviceId = true
  keys : ∀ deviceId keys, (deviceId, keys) ∈ container →
    shownKeys viewer tables userId deviceId = some keys

def answeredDevices : List DeviceId :=
  if deviceIds.isEmpty then (tables.userdeviceidMetadata userId).map fst
  else deviceIds.getLast?.toList

/-- A container that was filled without an error. -/
structure Answered (container : DeviceKeys) : Prop where
  mem_iff : ∀ deviceId keys, (deviceId, keys) ∈ container ↔
    deviceId ∈ answeredDevices tables userId deviceIds ∧
      shownKeys viewer tables userId deviceId = some keys
  shown : ∀ deviceId ∈ requestedDevices tables userId deviceIds,
    tables.hasKeys userId deviceId = true →
      ∃ keys, shownKeys viewer tables userId deviceId = some keys

end

section

variable {viewer : Viewer} {tables : KeyTables} {userId : UserId}
  {deviceId : DeviceId} {deviceIds : List DeviceId}

theorem hasKeys_of_shownKeys {keys : Json}
    (shown : shownKeys viewer tables userId deviceId = some keys) :
    tables.hasKeys userId deviceId = true := by
  unfold shownKeys at shown
  unfold KeyTables.hasKeys
  cases stored : tables.keyidKey (userId, deviceId) with
  | none =>
      rw [stored] at shown
      cases shown
  | some found => rfl

theorem deviceEntry_ok {missing : Error} {container : DeviceKeys}
    (answered : deviceEntry viewer tables missing userId deviceId =
      .ok container) :
    (∀ other keys, (other, keys) ∈ container ↔ other = deviceId ∧
        shownKeys viewer tables userId other = some keys) ∧
    (tables.hasKeys userId deviceId = true →
      ∃ keys, shownKeys viewer tables userId deviceId = some keys) := by
  unfold deviceEntry at answered
  unfold KeyTables.hasKeys
  cases stored : tables.keyidKey (userId, deviceId) with
  | none =>
      rw [stored] at answered
      cases answered
      refine ⟨fun other keys => ?_, fun has => by cases has⟩
      have nothing : ¬ (other = deviceId ∧
          shownKeys viewer tables userId other = some keys) := by
        rintro ⟨rfl, shown⟩
        simp [shownKeys, stored] at shown
      exact iff_of_false not_mem_nil nothing
  | some found =>
      rw [stored] at answered
      simp only at answered
      split at answered
      · cases answered
      next metadata known =>
        split at answered
        · cases answered
        next shown named =>
          cases answered
          have found : shownKeys viewer tables userId deviceId =
              some shown := by
            simp [shownKeys, stored, known, named]
          refine ⟨fun other keys => ?_, fun _ => ⟨shown, found⟩⟩
          rw [mem_singleton, mk.injEq]
          constructor
          · rintro ⟨rfl, rfl⟩
            exact ⟨rfl, found⟩
          · rintro ⟨rfl, same⟩
            rw [found] at same
            cases same
            exact ⟨rfl, rfl⟩

theorem requestedDevices_of_ne_nil (named : deviceIds ≠ []) :
    requestedDevices tables userId deviceIds = deviceIds := by
  simp [requestedDevices, named]

theorem mem_answeredDevices (named : deviceIds ≠ []) :
    deviceId ∈ answeredDevices tables userId deviceIds ↔
      deviceIds.getLast? = some deviceId := by
  simp [answeredDevices, named]

theorem answered_subset
    (answered : deviceId ∈ answeredDevices tables userId deviceIds) :
    deviceId ∈ requestedDevices tables userId deviceIds := by
  by_cases named : deviceIds = []
  · subst named
    exact answered
  · rw [mem_answeredDevices named] at answered
    rw [requestedDevices_of_ne_nil named]
    exact mem_of_getLast? answered

/-- The container is exact if and only if no device but the last of the named
ones has keys. -/
theorem Answered.holdsRequested_iff {input : DeviceKeysInput}
    {container : DeviceKeys}
    (filled : Answered viewer tables userId deviceIds container)
    (requested : ∀ deviceId, Requested tables input userId deviceId ↔
      deviceId ∈ requestedDevices tables userId deviceIds) :
    HoldsRequested viewer tables input userId container ↔
      ∀ deviceId ∈ deviceIds, tables.hasKeys userId deviceId = true →
        deviceIds.getLast? = some deviceId := by
  constructor
  · intro holds deviceId named hasKeys
    have listed := ne_nil_of_mem named
    have inside : deviceId ∈ requestedDevices tables userId deviceIds := by
      rw [requestedDevices_of_ne_nil listed]
      exact named
    obtain ⟨keys, member⟩ := (holds.devices deviceId).mpr
      ⟨(requested deviceId).mpr inside, hasKeys⟩
    exact (mem_answeredDevices listed).mp
      ((filled.mem_iff deviceId keys).mp member).1
  · intro onlyLast
    refine ⟨fun deviceId => ?_, fun deviceId keys member =>
      ((filled.mem_iff deviceId keys).mp member).2⟩
    constructor
    · rintro ⟨keys, member⟩
      obtain ⟨answered, shown⟩ := (filled.mem_iff deviceId keys).mp member
      exact ⟨(requested deviceId).mpr (answered_subset answered),
        hasKeys_of_shownKeys shown⟩
    · rintro ⟨isRequested, hasKeys⟩
      have inside := (requested deviceId).mp isRequested
      obtain ⟨keys, shown⟩ := filled.shown deviceId inside hasKeys
      refine ⟨keys, (filled.mem_iff deviceId keys).mpr ⟨?_, shown⟩⟩
      by_cases named : deviceIds = []
      · subst named
        exact inside
      · rw [requestedDevices_of_ne_nil named] at inside
        exact (mem_answeredDevices named).mpr (onlyLast deviceId inside hasKeys)

end

section

variable {federation : Federation} {viewer : Viewer}

def Gathered.putDevices (gathered : Gathered KeysAnswer) (userId : UserId)
    (container : DeviceKeys) : Gathered KeysAnswer :=
  { gathered with answer := { gathered.answer with
      deviceKeys :=
        Function.update gathered.answer.deviceKeys userId (some container) } }

theorem Gathered.putDevices_putDevices (gathered : Gathered KeysAnswer)
    (userId : UserId) (first second : DeviceKeys) :
    (gathered.putDevices userId first).putDevices userId second =
      gathered.putDevices userId second := by
  simp [Gathered.putDevices]

theorem putDeviceKeys_run (userId : UserId) (container : DeviceKeys)
    (gathered : Gathered KeysAnswer) :
    putDeviceKeys userId container gathered =
      .ok () (gathered.putDevices userId container) :=
  rfl

variable {userId : UserId} {gathered after : Gathered KeysAnswer}

theorem namedDevices_ok {tables : KeyTables} {missing : Error}
    {deviceIds : List DeviceId} (named : deviceIds ≠ [])
    (result : deviceIds.forM (fun deviceId => (do
      let container ← liftExcept (deviceEntry viewer tables missing userId
        deviceId)
      putDeviceKeys userId container : Gather KeysAnswer Unit)) gathered =
        .ok () after) :
    ∃ container, Answered viewer tables userId deviceIds container ∧
      after = gathered.putDevices userId container := by
  induction deviceIds generalizing gathered with
  | nil => exact absurd rfl named
  | cons deviceId rest ih =>
      rw [forM_cons] at result
      obtain ⟨_, middle, first, later⟩ := bind_ok result
      obtain ⟨container, same, lifted, puts⟩ := bind_ok first
      obtain ⟨entry, rfl⟩ := liftExcept_ok lifted
      rw [putDeviceKeys_run] at puts
      cases puts
      obtain ⟨mem_iff, shown⟩ := deviceEntry_ok entry
      by_cases last : rest = []
      · subst last
        cases later
        refine ⟨container, ⟨fun other keys => ?_, fun other listed => ?_⟩, rfl⟩
        · rw [mem_iff, mem_answeredDevices (cons_ne_nil deviceId []),
            getLast?_singleton, Option.some_inj, eq_comm]
        · rw [requestedDevices_of_ne_nil (cons_ne_nil deviceId []),
            mem_singleton] at listed
          rw [listed]
          exact shown
      · obtain ⟨final, filled, ends⟩ := ih last later
        rw [Gathered.putDevices_putDevices] at ends
        refine ⟨final, ⟨fun other keys => ?_, fun other listed => ?_⟩, ends⟩
        · rw [filled.mem_iff, mem_answeredDevices last,
            mem_answeredDevices (cons_ne_nil deviceId rest),
            getLast?_cons_of_ne_nil last]
        · rw [requestedDevices_of_ne_nil (cons_ne_nil deviceId rest)] at listed
          rcases mem_cons.mp listed with here | further
          · rw [here]
            exact shown
          · refine filled.shown other ?_
            rw [requestedDevices_of_ne_nil last]
            exact further

theorem allDevices_ok {tables : KeyTables} {missing : Error}
    {containers : List DeviceKeys}
    (read : (tables.userdeviceidMetadata userId).mapM (fun row =>
      deviceEntry viewer tables missing userId row.1) = .ok containers) :
    Answered viewer tables userId [] containers.flatten := by
  refine ⟨fun deviceId keys => ?_, fun deviceId listed => ?_⟩
  · rw [mem_flatten]
    constructor
    · rintro ⟨container, inside, member⟩
      obtain ⟨row, listed, entry⟩ := (mapM_matches read).1 container inside
      obtain ⟨rfl, shown⟩ := ((deviceEntry_ok entry).1 _ _).mp member
      exact ⟨mem_map_of_mem listed, shown⟩
    · rintro ⟨listed, shown⟩
      obtain ⟨row, stored, rfl⟩ := mem_map.mp listed
      obtain ⟨container, inside, entry⟩ := (mapM_matches read).2 row stored
      exact ⟨container, inside, ((deviceEntry_ok entry).1 _ _).mpr ⟨rfl, shown⟩⟩
  · obtain ⟨row, stored, rfl⟩ := mem_map.mp listed
    obtain ⟨container, inside, entry⟩ := (mapM_matches read).2 row stored
    exact (deviceEntry_ok entry).2

theorem localDevices_ok {deviceIds : List DeviceId}
    (result : localDevices viewer userId deviceIds gathered = .ok () after) :
    ∃ container, Answered viewer gathered.tables userId deviceIds container ∧
      after = gathered.putDevices userId container := by
  unfold localDevices at result
  rw [get_bind] at result
  cases deviceIds with
  | nil =>
      obtain ⟨containers, middle, lifted, puts⟩ := bind_ok result
      obtain ⟨read, rfl⟩ := liftExcept_ok lifted
      rw [putDeviceKeys_run] at puts
      cases puts
      exact ⟨containers.flatten, allDevices_ok read, rfl⟩
  | cons deviceId rest =>
      exact namedDevices_ok (cons_ne_nil deviceId rest) result

def SameDevices (before after : Gathered KeysAnswer) : Prop :=
  after.answer.deviceKeys = before.answer.deviceKeys

instance : IsPreorder (Gathered KeysAnswer) SameDevices where
  refl _ := rfl
  trans _ _ _ first second := second.trans first

theorem localCrossSigning_ok
    (result : localCrossSigning federation viewer userId gathered =
      .ok () after) :
    after.tables = gathered.tables ∧ SameDevices gathered after := by
  unfold localCrossSigning at result
  rw [get_bind] at result
  cases result
  exact ⟨rfl, rfl⟩

structure LocalAnswers (federation : Federation) (viewer : Viewer)
    (tables : KeyTables) (visited : DeviceKeysInput)
    (gathered : Gathered KeysAnswer) : Prop where
  tables_eq : gathered.tables = tables
  absent : ∀ userId, userId ∉ visited.map fst →
    gathered.answer.deviceKeys userId = none
  answered : ∀ userId deviceIds, (userId, deviceIds) ∈ visited →
    userIsLocal federation.ourServer userId = true →
      ∃ container, Answered viewer tables userId deviceIds container ∧
        gathered.answer.deviceKeys userId = some container

variable {input : DeviceKeysInput}

theorem localKeys_answers (distinct : (input.map fst).Nodup)
    (tables : KeyTables) :
    Meets (fun _ => LocalAnswers federation viewer tables input)
      (fun _ _ => True) (localKeys federation viewer input
        { tables, answer := KeysAnswer.empty }) := by
  refine Meets.forM (LocalAnswers federation viewer tables) ?_ input []
    _ rfl ⟨rfl, fun _ _ => rfl, by simp⟩
  intro visited entry rest gathered whole holds
  obtain ⟨userId, deviceIds⟩ := entry
  have new : userId ∉ visited.map fst := by
    rw [whole, map_append, map_cons] at distinct
    intro earlier
    exact disjoint_of_nodup_append distinct earlier mem_cons_self
  have others {value : UserId} (absent : value ∉ (visited ++
      [(userId, deviceIds)]).map fst) :
      value ≠ userId ∧ value ∉ visited.map fst := by
    simpa [not_or, and_comm] using absent
  cases isLocal : userIsLocal federation.ourServer userId with
  | false =>
      simp only
      refine ⟨holds.tables_eq, fun value absent =>
        holds.absent value (others absent).2, ?_⟩
      intro value named member here
      rcases mem_append.mp member with earlier | last
      · exact holds.answered value named earlier here
      · cases mem_singleton.mp last
        rw [isLocal] at here
        cases here
  | true =>
      simp only [if_true]
      cases result : ((do
          localDevices viewer userId deviceIds
          localCrossSigning federation viewer userId) :
            Gather KeysAnswer Unit) gathered with
      | error error reached => exact trivial
      | ok value reached =>
          obtain ⟨_, middle, first, second⟩ := bind_ok result
          obtain ⟨container, filled, puts⟩ := localDevices_ok first
          obtain ⟨sameTables, sameDevices⟩ := localCrossSigning_ok second
          have devices : reached.answer.deviceKeys = Function.update
              gathered.answer.deviceKeys userId (some container) := by
            rw [sameDevices, puts]
            rfl
          refine ⟨?_, fun value absent => ?_, ?_⟩
          · rw [sameTables, puts]
            exact holds.tables_eq
          · rw [devices, Function.update_of_ne (others absent).1]
            exact holds.absent value (others absent).2
          · intro value named member here
            rw [devices]
            rcases mem_append.mp member with earlier | last
            · have differs : value ≠ userId := by
                rintro rfl
                exact new (mem_map_of_mem earlier)
              rw [Function.update_of_ne differs]
              exact holds.answered value named earlier here
            · cases mem_singleton.mp last
              rw [Function.update_self, ← holds.tables_eq]
              exact ⟨container, filled, rfl⟩

section

variable (federation : Federation) (input : DeviceKeysInput)

def named (userId : UserId) (server : ServerName) : Option DeviceKeys :=
  match federation.getKeys server (requestTo server input) with
  | .ok response => response.deviceKeys.lookup userId
  | .error _ => none

def lastNamed (arrived : List ServerName) (userId : UserId) :
    Option DeviceKeys :=
  arrived.reverse.findSome? (named federation input userId)

theorem lastNamed_cons (server : ServerName) (arrived : List ServerName)
    (userId : UserId) :
    lastNamed federation input (server :: arrived) userId =
      (lastNamed federation input arrived userId).or
        (named federation input userId server) := by
  unfold lastNamed
  rw [reverse_cons, findSome?_append, findSome?_singleton]

end

theorem mergeMasterKey_sameDevices (userId : UserId) (masterKey : Json) :
    Keeps SameDevices (mergeMasterKey federation viewer userId masterKey) := by
  intro gathered
  cases read : parseMasterKey federation.format userId masterKey with
  | error error =>
      rw [mergeMasterKey_refused read]
      exact refl_of SameDevices gathered
  | ok found =>
      rw [mergeMasterKey_run read]
      split
      · exact refl_of SameDevices gathered
      · split
        · exact refl_of SameDevices gathered
        · rfl

theorem mergeKeys_ok {server : ServerName}
    (result : mergeKeys federation viewer server
      (federation.getKeys server (requestTo server input)) gathered =
        .ok () after) (userId : UserId) :
    after.answer.deviceKeys userId = (named federation input userId server).or
        (gathered.answer.deviceKeys userId) := by
  unfold named
  unfold mergeKeys at result
  cases answer : federation.getKeys server (requestTo server input) with
  | error error =>
      rw [answer] at result
      cases result
      rfl
  | ok response =>
      rw [answer] at result
      obtain ⟨_, middle, masters, final⟩ := bind_ok result
      have same : SameDevices gathered middle :=
        (Keeps.forM (fun entry _ =>
          mergeMasterKey_sameDevices entry.1 entry.2)).ok masters
      cases final
      rw [← same]
      rfl

theorem mergeAll_ok {arrived : List ServerName}
    (result : arrived.forM (fun server => mergeKeys federation viewer server
      (federation.getKeys server (requestTo server input))) gathered =
        .ok () after) (userId : UserId) :
    after.answer.deviceKeys userId =
      (lastNamed federation input arrived userId).or
        (gathered.answer.deviceKeys userId) := by
  induction arrived generalizing gathered with
  | nil =>
      cases result
      rfl
  | cons server rest ih =>
      rw [forM_cons] at result
      obtain ⟨_, middle, first, later⟩ := bind_ok result
      rw [ih later, mergeKeys_ok first, lastNamed_cons, Option.or_assoc]

theorem getKeysHelper_ok {arrived : List ServerName} {tables : KeyTables}
    (distinct : (input.map fst).Nodup)
    (answered : getKeysHelper federation viewer input arrived
      { tables, answer := KeysAnswer.empty } = .ok () after) :
    ∃ reached, LocalAnswers federation viewer tables input reached ∧
      ∀ userId, after.answer.deviceKeys userId =
        (lastNamed federation input arrived userId).or
          (reached.answer.deviceKeys userId) := by
  obtain ⟨_, reached, begins, merges⟩ := bind_ok answered
  have answers : Meets (fun _ => LocalAnswers federation viewer tables input)
      (fun _ _ => True) (localKeys federation viewer input
        { tables, answer := KeysAnswer.empty }) :=
    localKeys_answers distinct tables
  rw [begins] at answers
  exact ⟨reached, answers, mergeAll_ok merges⟩

/-- A query gives the right device keys of a user of this server if the last
response that names the user gives them, or none names it and no device but the
last of those asked for has keys. -/
def RightlyAsked (federation : Federation) (viewer : Viewer)
    (input : DeviceKeysInput) (arrived : List ServerName)
    (tables : KeyTables) (userId : UserId) : Prop :=
  match lastNamed federation input arrived userId with
  | some container => HoldsRequested viewer tables input userId container
  | none => ∀ deviceIds, (userId, deviceIds) ∈ input →
      ∀ deviceId ∈ deviceIds, tables.hasKeys userId deviceId = true →
        deviceIds.getLast? = some deviceId

/-- The device keys in the answer for a user of this server are exactly those
asked for if and only if the user is asked for rightly. -/
theorem getKeysHelper_exact_iff {input : DeviceKeysInput}
    {arrived : List ServerName} {tables : KeyTables}
    {after : Gathered KeysAnswer} (distinct : (input.map fst).Nodup)
    (answered : getKeysHelper federation viewer input arrived
      { tables, answer := KeysAnswer.empty } = .ok () after)
    {userId : UserId}
    (isLocal : userIsLocal federation.ourServer userId = true) :
    HoldsRequested viewer tables input userId
        ((after.answer.deviceKeys userId).getD []) ↔
      RightlyAsked federation viewer input arrived tables userId := by
  obtain ⟨reached, answers, devices⟩ := getKeysHelper_ok distinct answered
  rw [devices userId]
  unfold RightlyAsked
  cases lastNamed federation input arrived userId with
  | some container => exact Iff.rfl
  | none =>
      rw [Option.none_or]
      by_cases asked : ∃ deviceIds, (userId, deviceIds) ∈ input
      · obtain ⟨deviceIds, listed⟩ := asked
        have only : ∀ other, (userId, other) ∈ input → other = deviceIds :=
          fun other member => congrArg snd
            (inj_on_of_nodup_map distinct member listed rfl)
        obtain ⟨container, filled, held⟩ :=
          answers.answered userId deviceIds listed isLocal
        have requested (deviceId : DeviceId) :
            Requested tables input userId deviceId ↔
              deviceId ∈ requestedDevices tables userId deviceIds := by
          constructor
          · rintro ⟨other, member, inside⟩
            rw [only other member] at inside
            exact inside
          · intro inside
            exact ⟨deviceIds, listed, inside⟩
        rw [held, Option.getD_some, filled.holdsRequested_iff requested]
        constructor
        · intro onlyLast other member
          rw [only other member]
          exact onlyLast
        · intro onlyLast
          exact onlyLast deviceIds listed
      · have absent : userId ∉ input.map fst := by
          intro member
          obtain ⟨entry, listed, rfl⟩ := mem_map.mp member
          exact asked ⟨entry.2, listed⟩
        rw [answers.absent userId absent, Option.getD_none]
        refine iff_of_true ⟨fun deviceId => ?_, fun _ _ member => by
          cases member⟩ (fun other member => absurd ⟨other, member⟩ asked)
        refine iff_of_false ?_ ?_
        · rintro ⟨keys, member⟩
          cases member
        · rintro ⟨⟨other, member, _⟩, _⟩
          exact asked ⟨other, member⟩

end

namespace TwoDevices

def tables : KeyTables :=
  { KeyTables.empty with
    keyidKey := fun keyId =>
      if keyId = ("@bob:h", "A") then some (.str "a")
      else if keyId = ("@bob:h", "B") then some (.str "b")
      else none
    userdeviceidMetadata := fun _ => [("A", ⟨"A", none⟩), ("B", ⟨"B", none⟩)] }

def viewer : Viewer := ⟨some "@alice:h", fun _ => false, true⟩

def answerFor (deviceIds : List DeviceId) :
    EStateM.Result Error (Gathered KeysAnswer) Unit :=
  getKeysHelper (OneKey.federation "@eve:e") viewer [("@bob:h", deviceIds)] []
    { tables, answer := KeysAnswer.empty }

theorem allDevices_exact :
    HoldsRequested viewer tables [("@bob:h", [])] "@bob:h"
      [("A", .str "a"), ("B", .str "b")] := by
  have answered : answerFor [] = .ok () (ended (answerFor [])) := rfl
  have isLocal : userIsLocal "h" "@bob:h" = true := by decide
  refine (getKeysHelper_exact_iff (by simp) answered isLocal).mpr ?_
  intro deviceIds member deviceId named
  cases mem_singleton.mp member
  cases named

/-- Of two devices that are asked for by name only the second is answered. -/
theorem firstDevice_lost :
    (ended (answerFor ["A", "B"])).answer.deviceKeys "@bob:h" =
      some [("B", .str "b")] ∧
    ¬ ∀ (federation : Federation) (viewer : Viewer) (input : DeviceKeysInput)
        (arrived : List ServerName) (tables : KeyTables)
        (after : Gathered KeysAnswer), (input.map fst).Nodup →
        arrived.Perm (askedServers federation.ourServer input) →
        getKeysHelper federation viewer input arrived
          { tables, answer := KeysAnswer.empty } = .ok () after →
        ∀ userId, userIsLocal federation.ourServer userId = true →
          HoldsRequested viewer tables input userId
            ((after.answer.deviceKeys userId).getD []) := by
  refine ⟨rfl, fun exact => ?_⟩
  have holds : HoldsRequested viewer tables [("@bob:h", ["A", "B"])] "@bob:h"
      [("B", .str "b")] :=
    exact (OneKey.federation "@eve:e") viewer [("@bob:h", ["A", "B"])] []
      tables (ended (answerFor ["A", "B"])) (by simp) (.refl _) rfl "@bob:h"
      (by decide)
  obtain ⟨keys, member⟩ := (holds.devices "A").mpr
    ⟨⟨["A", "B"], mem_singleton.mpr rfl, mem_cons_self⟩, rfl⟩
  have same : "A" = "B" := congrArg fst (mem_singleton.mp member)
  exact absurd same (by decide)

end TwoDevices

end ArcanaServer.Keys
