import ArcanaServer.StateRes.EventAuth

namespace ArcanaServer.StateRes

open ArcanaServer.Matrix List RoomVersion

inductive ScalarLevel where
  | usersDefault
  | eventsDefault
  | stateDefault
  | ban
  | redact
  | kick
  | invite
  deriving DecidableEq, Repr

namespace ScalarLevel

def all : List ScalarLevel :=
  [.usersDefault, .eventsDefault, .stateDefault, .ban, .redact, .kick, .invite]

def name : ScalarLevel → String
  | .usersDefault => "users_default"
  | .eventsDefault => "events_default"
  | .stateDefault => "state_default"
  | .ban => "ban"
  | .redact => "redact"
  | .kick => "kick"
  | .invite => "invite"

def missing : ScalarLevel → Int
  | .usersDefault | .eventsDefault | .invite => 0
  | .stateDefault | .ban | .redact | .kick => defaultPowerLevel

def effective (content : RoomPowerLevelsEventContent) : ScalarLevel → Int
  | .usersDefault => content.usersDefault
  | .eventsDefault => content.eventsDefault
  | .stateDefault => content.stateDefault
  | .ban => content.ban
  | .redact => content.redact
  | .kick => content.kick
  | .invite => content.invite

theorem mem_all (level : ScalarLevel) : level ∈ all := by
  cases level <;> decide

theorem levelNames_eq : levelNames = all.map name := rfl

end ScalarLevel

/-- The levels are numbers of the Matrix library. -/
def Representable (content : RoomPowerLevelsEventContent) : Prop :=
  ∀ level : ScalarLevel, (Json.int (level.effective content)).asInt =
      some (level.effective content)

/-- What serialising a content does to the levels: those that equal their
default are left out, the others are written as numbers. -/
def SerializedAs (content : RoomPowerLevelsEventContent) (value : Json) :
    Prop :=
  ∃ fields, value.asObject = some fields ∧
    ∀ level : ScalarLevel, fields.lookup level.name =
      if level.effective content = level.missing then none
      else some (.int (level.effective content))

structure LeavesOutDefaults (ruma : Ruma) : Prop where
  decoded : ∀ content levels,
    ruma.roomPowerLevels content = some levels → Representable levels
  serialized : ∀ levels, Representable levels →
    SerializedAs levels (ruma.roomPowerLevelsToValue levels)

theorem asInt_eq_some {value : Json} {level : Int}
    (decoded : value.asInt = some level) : value = .int level := by
  cases value with
  | int number =>
      simp only [Json.asInt] at decoded
      split at decoded
      · rw [Option.some.inj decoded]
      · cases decoded
  | _ => cases decoded

theorem decodeOr_asInt_representable {missing level : Int}
    {fields : CanonicalJsonObject} {name : String}
    (small : (Json.int missing).asInt = some missing)
    (decoded : decodeOr missing Json.asInt fields name = some level) :
    (Json.int level).asInt = some level := by
  unfold decodeOr at decoded
  split at decoded
  · rw [← Option.some.inj decoded]
    exact small
  · rename_i value found
    rw [← asInt_eq_some decoded]
    exact decoded

theorem deserializeIntegerPowerLevels_representable {ruma : Ruma}
    {content : Json} {levels : RoomPowerLevelsEventContent}
    (decoded : deserializeIntegerPowerLevels ruma content = some levels) :
    Representable levels := by
  simp only [deserializeIntegerPowerLevels, bind, Option.bind_eq_some_iff]
    at decoded
  obtain ⟨fields, -, ban, banDecoded, events, -, eventsDefault,
    eventsDefaultDecoded, invite, inviteDecoded, kick, kickDecoded, redact,
    redactDecoded, stateDefault, stateDefaultDecoded, users, -, usersDefault,
    usersDefaultDecoded, room, -, built⟩ := decoded
  cases Option.some.inj built
  intro level
  cases level with
  | usersDefault => exact decodeOr_asInt_representable rfl usersDefaultDecoded
  | eventsDefault => exact decodeOr_asInt_representable rfl eventsDefaultDecoded
  | stateDefault => exact decodeOr_asInt_representable rfl stateDefaultDecoded
  | ban => exact decodeOr_asInt_representable rfl banDecoded
  | redact => exact decodeOr_asInt_representable rfl redactDecoded
  | kick => exact decodeOr_asInt_representable rfl kickDecoded
  | invite => exact decodeOr_asInt_representable rfl inviteDecoded

theorem LeavesOutDefaults.representable {ruma : Ruma}
    (library : LeavesOutDefaults ruma) {roomVersion : RoomVersion}
    {content : Json} {levels : RoomPowerLevelsEventContent}
    (decoded : deserializePowerLevels ruma content roomVersion = some levels) :
    Representable levels := by
  unfold deserializePowerLevels at decoded
  split at decoded
  · exact deserializeIntegerPowerLevels_representable decoded
  · exact library.decoded content levels decoded

def writeLevels (levels : List (String × Int × Int)) : CanonicalJsonObject :=
  (levels.filter (fun level => level.2.1 ≠ level.2.2)).map
    (fun level => (level.1, .int level.2.2))

theorem lookup_writeLevels_of_notMem {levels : List (String × Int × Int)}
    {name : String} (absent : name ∉ levels.map Prod.fst) :
    (writeLevels levels).lookup name = none := by
  rw [lookup_eq_none_iff]
  intro field member
  obtain ⟨level, listed, rfl⟩ := mem_map.mp member
  have distinct : name ≠ level.1 := by
    rintro rfl
    exact absent (mem_map_of_mem (mem_of_mem_filter listed))
  simpa using distinct

theorem lookup_writeLevels {levels : List (String × Int × Int)}
    (distinct : (levels.map Prod.fst).Nodup) {name : String}
    {missing value : Int} (listed : (name, missing, value) ∈ levels) :
    (writeLevels levels).lookup name =
      if value = missing then none else some (.int value) := by
  induction levels with
  | nil => cases listed
  | cons first rest inductionHypothesis =>
      obtain ⟨fresh, distinctRest⟩ := nodup_cons.mp distinct
      have rule := inductionHypothesis distinctRest
      rcases mem_cons.mp listed with here | later
      · subst here
        have absent := lookup_writeLevels_of_notMem fresh
        by_cases unchanged : value = missing
        · simpa [writeLevels, unchanged] using absent
        · simp [writeLevels, unchanged, Ne.symm unchanged]
      · have other : name ≠ first.1 := by
          intro same
          exact fresh (mem_map.mpr ⟨_, later, same⟩)
        rw [← rule later]
        by_cases unchanged : first.2.1 = first.2.2
        · simp [writeLevels, unchanged]
        · have skipped : (name == first.1) = false := by simpa using other
          simp [writeLevels, unchanged, lookup_cons, skipped]

theorem plainRuma_leavesOutDefaults : LeavesOutDefaults plainRuma where
  decoded := fun _ _ => deserializeIntegerPowerLevels_representable
  serialized := by
    intro levels _
    refine ⟨writeLevels (serializedLevels levels), rfl, ?_⟩
    intro level
    have distinct : ((serializedLevels levels).map Prod.fst).Nodup := by
      simp [serializedLevels]
    apply lookup_writeLevels distinct
    cases level <;>
      simp [serializedLevels, ScalarLevel.name, ScalarLevel.missing,
        ScalarLevel.effective]

variable {old new : RoomPowerLevelsEventContent} {oldValue newValue : Json}

section

variable (oldRepresentable : Representable old)
  (newRepresentable : Representable new)
  (oldSerialized : SerializedAs old oldValue)
  (newSerialized : SerializedAs new newValue)
include oldRepresentable newRepresentable oldSerialized newSerialized

theorem getDeserializeLevels_eq (level : ScalarLevel) :
    getDeserializeLevels oldValue newValue level.name =
      if level.effective old = level.missing ∨
          level.effective new = level.missing then none
      else some (level.effective old, level.effective new) := by
  obtain ⟨oldFields, oldObject, oldLookup⟩ := oldSerialized
  obtain ⟨newFields, newObject, newLookup⟩ := newSerialized
  simp only [getDeserializeLevels, oldObject, newObject, oldLookup, newLookup,
    bind, Option.bind_some]
  by_cases oldDefault : level.effective old = level.missing
  · simp [oldDefault]
  · by_cases newDefault : level.effective new = level.missing
    · simp [newDefault]
    · simp [oldDefault, newDefault, oldRepresentable level,
        newRepresentable level]

theorem levelChangeAllowed_iff (userLevel : Int) (level : ScalarLevel) :
    levelChangeAllowed userLevel oldValue newValue level.name = true ↔
      (level.effective old ≠ level.missing →
        level.effective new ≠ level.missing →
        level.effective old ≤ userLevel ∧ level.effective new ≤ userLevel) := by
  unfold levelChangeAllowed
  rw [getDeserializeLevels_eq oldRepresentable newRepresentable oldSerialized
    newSerialized level]
  by_cases oldDefault : level.effective old = level.missing
  · simp [oldDefault]
  · by_cases newDefault : level.effective new = level.missing
    · simp [newDefault]
    · simp [oldDefault, newDefault, exceeds]

end

theorem levelNames_all_iff (allowed : String → Bool) :
    levelNames.all allowed = true ↔
      ∀ level : ScalarLevel, allowed level.name = true := by
  rw [ScalarLevel.levelNames_eq, all_map, all_eq_true]
  exact ⟨fun every level => every level (ScalarLevel.mem_all level),
    fun every level _ => every level⟩

/-- The rules for the listed users, the listed event types and the
notifications let the change pass. -/
def EntriesAllowed (roomVersion : RoomVersion) (sender : UserId)
    (userLevel : Int) (creators : List UserId)
    (old new : RoomPowerLevelsEventContent) : Prop :=
  ((old.users ++ new.users).map Prod.fst).all
      (userChangeAllowed sender userLevel creators old new) = true ∧
    ((old.events ++ new.events).map Prod.fst).all
      (eventChangeAllowed userLevel old new) = true ∧
    notificationsChangeAllowed roomVersion userLevel old new = true

section

variable (userLevel : Int) (old new : RoomPowerLevelsEventContent)

/-- Whatever level changes, neither its old nor its new value is above the
level of the sender. -/
def WithinPower : Prop :=
  ∀ level : ScalarLevel, level.effective old ≠ level.effective new →
    level.effective old ≤ userLevel ∧ level.effective new ≤ userLevel

/-- A level changes between two values that are not its default, and one of
them is above the level of the sender. -/
def ExplicitChangeAbove : Prop :=
  ∃ level : ScalarLevel, level.effective old ≠ level.effective new ∧
    level.effective old ≠ level.missing ∧
    level.effective new ≠ level.missing ∧
    (userLevel < level.effective old ∨ userLevel < level.effective new)

/-- A level leaves its default or returns to it, and one of the two values is
above the level of the sender. -/
def DefaultChangeAbove : Prop :=
  ∃ level : ScalarLevel, level.effective old ≠ level.effective new ∧
    (level.effective old = level.missing ∨
      level.effective new = level.missing) ∧
    (userLevel < level.effective old ∨ userLevel < level.effective new)

/-- A level stays at a value that is not its default and is above the level of
the sender. -/
def KeptAbove : Prop :=
  ∃ level : ScalarLevel, level.effective old = level.effective new ∧
    level.effective old ≠ level.missing ∧ userLevel < level.effective old

end

theorem withinPower_iff (userLevel : Int) : WithinPower userLevel old new ↔
      ¬ ExplicitChangeAbove userLevel old new ∧
        ¬ DefaultChangeAbove userLevel old new := by
  constructor
  · intro within
    constructor
    · rintro ⟨level, changed, -, -, above⟩
      obtain ⟨oldWithin, newWithin⟩ := within level changed
      omega
    · rintro ⟨level, changed, -, above⟩
      obtain ⟨oldWithin, newWithin⟩ := within level changed
      omega
  · rintro ⟨noExplicit, noDefault⟩ level changed
    by_contra exceeded
    have above : userLevel < level.effective old ∨
        userLevel < level.effective new := by omega
    by_cases default : level.effective old = level.missing ∨
        level.effective new = level.missing
    · exact noDefault ⟨level, changed, default, above⟩
    · push Not at default
      exact noExplicit ⟨level, changed, default.1, default.2, above⟩

theorem explicitWithin_iff (userLevel : Int) :
    (∀ level : ScalarLevel, level.effective old ≠ level.missing →
        level.effective new ≠ level.missing →
        level.effective old ≤ userLevel ∧ level.effective new ≤ userLevel) ↔
      ¬ ExplicitChangeAbove userLevel old new ∧
        ¬ KeptAbove userLevel old new := by
  constructor
  · intro within
    constructor
    · rintro ⟨level, -, oldExplicit, newExplicit, above⟩
      obtain ⟨oldWithin, newWithin⟩ := within level oldExplicit newExplicit
      omega
    · rintro ⟨level, kept, oldExplicit, above⟩
      obtain ⟨oldWithin, -⟩ := within level oldExplicit (kept ▸ oldExplicit)
      omega
  · rintro ⟨noChange, noKept⟩ level oldExplicit newExplicit
    by_contra exceeded
    have above : userLevel < level.effective old ∨
        userLevel < level.effective new := by omega
    by_cases kept : level.effective old = level.effective new
    · refine noKept ⟨level, kept, oldExplicit, ?_⟩
      omega
    · exact noChange ⟨level, kept, oldExplicit, newExplicit, above⟩

section

variable {ruma : Ruma} (library : LeavesOutDefaults ruma)
  {roomVersion : RoomVersion} {powerEvent previous : Pdu} {userLevel : Int}
  {creators : List UserId} (stateKey : powerEvent.stateKey = some "")
  (newDecoded :
    deserializePowerLevels ruma powerEvent.content roomVersion = some new)
  (oldDecoded :
    deserializePowerLevels ruma previous.content roomVersion = some old)
include library stateKey newDecoded oldDecoded

theorem checkPowerLevels_accepts_iff :
    checkPowerLevels ruma roomVersion powerEvent (some previous) userLevel
        creators = some true ↔
      EntriesAllowed roomVersion powerEvent.sender userLevel creators old new ∧
        ¬ ExplicitChangeAbove userLevel old new ∧
        ¬ KeptAbove userLevel old new := by
  have oldRepresentable := library.representable oldDecoded
  have newRepresentable := library.representable newDecoded
  have oldSerialized := library.serialized old oldRepresentable
  have newSerialized := library.serialized new newRepresentable
  simp only [checkPowerLevels, stateKey, ne_eq, not_true_eq_false, if_false,
    newDecoded, oldDecoded, bind, Option.bind_some, Option.some.injEq,
    Bool.and_eq_true, levelNames_all_iff, levelChangeAllowed_iff
      oldRepresentable newRepresentable oldSerialized newSerialized]
  rw [← explicitWithin_iff]
  simp only [EntriesAllowed, and_assoc]

theorem checkPowerLevels_withinPower_iff :
    (checkPowerLevels ruma roomVersion powerEvent (some previous) userLevel
          creators = some true ↔
        EntriesAllowed roomVersion powerEvent.sender userLevel creators old
            new ∧
          WithinPower userLevel old new) ↔
      (EntriesAllowed roomVersion powerEvent.sender userLevel creators old new →
        ExplicitChangeAbove userLevel old new ∨ (KeptAbove userLevel old new ↔
            DefaultChangeAbove userLevel old new)) := by
  rw [checkPowerLevels_accepts_iff library stateKey newDecoded oldDecoded,
    withinPower_iff]
  tauto

end

def moderatorLevels (banned : Int) : Json :=
  .obj [("ban", .int banned), ("users", .obj [("@mod:h", .int 50)])]

def moderatorLevelsPdu (eventId : EventId) (banned : Int) : Pdu :=
  { Pdu.message eventId "!room:h" "@mod:h" with
    kind := .roomPowerLevels, content := moderatorLevels banned,
    stateKey := some "" }

def moderatorContent (banned : Int) : RoomPowerLevelsEventContent :=
  { RoomPowerLevelsEventContent.default with
    ban := banned, users := [("@mod:h", 50)] }

theorem checkPowerLevels_withinPower_moderator :
    deserializePowerLevels plainRuma (moderatorLevels 50) v11 =
        some (moderatorContent 50) ∧
      (checkPowerLevels plainRuma v11
            (moderatorLevelsPdu "$new" 40)
            (some (moderatorLevelsPdu "$old" 50)) 50 [] = some true ↔
          EntriesAllowed v11 "@mod:h" 50 [] (moderatorContent 50)
              (moderatorContent 40) ∧
            WithinPower 50 (moderatorContent 50) (moderatorContent 40)) := by
  refine ⟨rfl, (checkPowerLevels_withinPower_iff plainRuma_leavesOutDefaults
    rfl rfl rfl).mpr ?_⟩
  intro _
  have low : ∀ level : ScalarLevel, level.effective (moderatorContent 50) ≤ 50 ∧
        level.effective (moderatorContent 40) ≤ 50 := by
    intro level
    cases level <;> decide
  have noKept : ¬ KeptAbove 50 (moderatorContent 50) (moderatorContent 40) := by
    rintro ⟨level, -, -, above⟩
    exact absurd above (Int.not_lt.mpr (low level).1)
  have noDefault :
      ¬ DefaultChangeAbove 50 (moderatorContent 50) (moderatorContent 40) := by
    rintro ⟨level, -, -, above⟩
    obtain ⟨oldLow, newLow⟩ := low level
    omega
  exact .inr (iff_of_false noKept noDefault)

theorem moderator_raises_ban_above :
    checkPowerLevels plainRuma v11 (moderatorLevelsPdu "$new" 100)
        (some (moderatorLevelsPdu "$old" 50)) 50 [] = some true ∧
      ¬ WithinPower 50 (moderatorContent 50) (moderatorContent 100) ∧
      ¬ (checkPowerLevels plainRuma v11
            (moderatorLevelsPdu "$new" 100)
            (some (moderatorLevelsPdu "$old" 50)) 50 [] = some true ↔
          EntriesAllowed v11 "@mod:h" 50 [] (moderatorContent 50)
              (moderatorContent 100) ∧
            WithinPower 50 (moderatorContent 50) (moderatorContent 100)) := by
  have accepted : checkPowerLevels plainRuma v11
      (moderatorLevelsPdu "$new" 100) (some (moderatorLevelsPdu "$old" 50))
      50 [] = some true := rfl
  have beyond :
      ¬ WithinPower 50 (moderatorContent 50) (moderatorContent 100) := by
    intro within
    have := (within .ban (by decide)).2
    exact absurd this (by decide)
  exact ⟨accepted, beyond, fun claimed => beyond (claimed.mp accepted).2⟩

end ArcanaServer.StateRes
