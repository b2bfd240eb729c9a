import ArcanaServer.Users.Accounts

namespace ArcanaServer.Users

open Function Accounts Option Function

abbrev DeviceKey := UserId × DeviceId

namespace Accounts

def removeDevice (accounts : Accounts) (userId : UserId)
    (deviceId : DeviceId) : Accounts :=
  let key := (userId, deviceId)
  let accounts := match accounts.deviceToken key with
    | some oldToken =>
        { accounts with
          deviceToken := update accounts.deviceToken key none
          tokenDevice := update accounts.tokenDevice oldToken none }
    | none => accounts
  { accounts with
    deviceMetadata := update accounts.deviceMetadata key none }

def assigned (accounts : Accounts) (key : DeviceKey) (token : String) :
    Accounts :=
  let tokenDevice := match accounts.deviceToken key with
    | some oldToken => update accounts.tokenDevice oldToken none
    | none => accounts.tokenDevice
  { accounts with
    deviceToken := update accounts.deviceToken key (some token)
    tokenDevice := update tokenDevice token (some key) }

end Accounts

namespace AccessTokens

variable {accounts : Accounts} {key other : DeviceKey} {token held : String}

/-- Each token stands for the device that stores it, and every device with a
token has metadata. -/
structure Inverse (accounts : Accounts) : Prop where
  authenticates : ∀ token key, accounts.tokenDevice token = some key ↔
    accounts.deviceToken key = some token
  metadata : ∀ key, accounts.deviceMetadata key = none →
    accounts.deviceToken key = none

theorem setToken_eq (settings : Settings) (userId : UserId)
    (deviceId : DeviceId) :
    (accounts.setToken settings userId deviceId token).2 =
      if (accounts.deviceMetadata (userId, deviceId)).isSome = true ∧
          settings.appserviceToken token = false then
        accounts.assigned (userId, deviceId) token
      else accounts := by
  simp only [setToken, assigned]
  cases accounts.deviceMetadata (userId, deviceId) with
  | none => simp
  | some device =>
      cases settings.appserviceToken token with
      | true => simp
      | false => exact (if_pos ⟨rfl, rfl⟩).symm

theorem deviceToken_assigned : (accounts.assigned key token).deviceToken other =
      if other = key then some token else accounts.deviceToken other := by
  unfold assigned
  exact update_apply _ _ _ _

theorem tokenDevice_assigned : (accounts.assigned key token).tokenDevice held =
      if held = token then some key
      else if accounts.deviceToken key = some held then none
      else accounts.tokenDevice held := by
  unfold assigned
  cases accounts.deviceToken key with
  | none =>
      simp only [update_apply, reduceCtorEq, if_false]
  | some oldToken =>
      simp only [update_apply, some.injEq, eq_comm (a := oldToken)]

theorem Inverse.released_iff (inverse : Inverse accounts) :
    (if accounts.deviceToken key = some held then none
      else accounts.tokenDevice held) = some other ↔
      other ≠ key ∧ accounts.deviceToken other = some held := by
  split
  next old =>
    refine iff_of_false (fun none => by cases none) ?_
    intro ⟨differs, stored⟩
    have stands := (inverse.authenticates held key).mpr old
    rw [(inverse.authenticates held other).mpr stored] at stands
    exact differs (some.inj stands)
  next kept =>
    rw [inverse.authenticates]
    refine (and_iff_right_of_imp fun stored same => kept ?_).symm
    rw [← same]
    exact stored

theorem Inverse.assigned_iff (inverse : Inverse accounts)
    (metadata : (accounts.deviceMetadata key).isSome = true) :
    Inverse (accounts.assigned key token) ↔
      ∀ other, accounts.deviceToken other = some token → other = key := by
  constructor
  · intro after other stored
    by_contra differs
    have given : (accounts.assigned key token).tokenDevice token =
        some key := by
      rw [tokenDevice_assigned, if_pos rfl]
    have kept : (accounts.assigned key token).deviceToken other =
        some token := by
      rw [deviceToken_assigned, if_neg differs]
      exact stored
    have stands := (after.authenticates token other).mpr kept
    rw [given] at stands
    exact differs (some.inj stands).symm
  · intro alone
    constructor
    · intro held other
      rw [tokenDevice_assigned, deviceToken_assigned]
      by_cases isToken : held = token
      · rw [if_pos isToken, isToken]
        by_cases isKey : other = key
        · simp [isKey]
        · rw [if_neg isKey]
          constructor
          · intro same
            exact absurd (some.inj same).symm isKey
          · intro stored
            exact absurd (alone other stored) isKey
      · rw [if_neg isToken, inverse.released_iff]
        by_cases isKey : other = key
        · rw [if_pos isKey]
          refine iff_of_false (fun both => both.1 isKey) ?_
          intro same
          exact isToken (some.inj same).symm
        · rw [if_neg isKey]
          exact and_iff_right isKey
    · intro other missing
      have differs : other ≠ key := by
        intro same
        have none : accounts.deviceMetadata other = none := missing
        rw [same] at none
        rw [none] at metadata
        cases metadata
      rw [deviceToken_assigned, if_neg differs]
      exact inverse.metadata other missing

theorem deviceToken_removeDevice :
    (accounts.removeDevice key.1 key.2).deviceToken other =
      if other = key then none else accounts.deviceToken other := by
  unfold removeDevice
  cases stored : accounts.deviceToken key with
  | none =>
      simp only [stored]
      split
      next same => rw [same, stored]
      · rfl
  | some oldToken =>
      simp only [stored]
      exact update_apply _ _ _ _

theorem tokenDevice_removeDevice :
    (accounts.removeDevice key.1 key.2).tokenDevice held =
      if accounts.deviceToken key = some held then none
      else accounts.tokenDevice held := by
  unfold removeDevice
  cases stored : accounts.deviceToken key with
  | none => simp only [stored, reduceCtorEq, if_false]
  | some oldToken =>
      simp only [stored, update_apply, some.injEq,
        eq_comm (a := oldToken)]

theorem deviceMetadata_removeDevice :
    (accounts.removeDevice key.1 key.2).deviceMetadata other =
      if other = key then none else accounts.deviceMetadata other := by
  unfold removeDevice
  cases stored : accounts.deviceToken key with
  | none | some oldToken =>
      simp only [stored]
      exact update_apply _ _ _ _

theorem Inverse.removeDevice (inverse : Inverse accounts) (key : DeviceKey) :
    Inverse (accounts.removeDevice key.1 key.2) := by
  constructor
  · intro held other
    rw [tokenDevice_removeDevice, deviceToken_removeDevice,
      inverse.released_iff]
    by_cases isKey : other = key
    · rw [if_pos isKey]
      exact iff_of_false (fun both => both.1 isKey) (fun none => by cases none)
    · rw [if_neg isKey]
      exact and_iff_right isKey
  · intro other missing
    rw [deviceMetadata_removeDevice] at missing
    rw [deviceToken_removeDevice]
    split at missing
    next isKey => rw [if_pos isKey]
    next differs =>
      rw [if_neg differs]
      exact inverse.metadata other missing

inductive Call where
  | createDevice (settings : Settings) (key : DeviceKey) (token : String)
      (initialDeviceDisplayName clientIp : Option String)
  | setToken (settings : Settings) (key : DeviceKey) (token : String)
  | removeDevice (key : DeviceKey)
  | usersChange (passwordHash : UserId → Option String)

def perform (accounts : Accounts) : Call → Accounts
  | .createDevice settings key token initialDeviceDisplayName clientIp =>
      (accounts.createDevice settings key.1 key.2 token
        initialDeviceDisplayName clientIp).2
  | .setToken settings key token =>
      (accounts.setToken settings key.1 key.2 token).2
  | .removeDevice key => accounts.removeDevice key.1 key.2
  | .usersChange passwordHash => { accounts with passwordHash }

def gives (accounts : Accounts) : Call → Option (DeviceKey × String)
  | .createDevice settings key token _ _ =>
      if accounts.exists key.1 = true ∧
          settings.appserviceToken token = false then some (key, token)
      else none
  | .setToken settings key token =>
      if (accounts.deviceMetadata key).isSome = true ∧
          settings.appserviceToken token = false then some (key, token)
      else none
  | .removeDevice _ | .usersChange _ => none

def Fresh (accounts : Accounts) (call : Call) : Prop :=
  ∀ key token, gives accounts call = some (key, token) →
    ∀ other, accounts.deviceToken other = some token → other = key

/-- The tables are inverse to each other, a token that no device stores any
more authenticates nobody, and no token does that neither did before nor was
given. -/
structure Settled (before : Accounts) (call : Call) (after : Accounts) :
    Prop where
  inverse : Inverse after
  gone : ∀ token key, before.deviceToken key = some token →
    after.deviceToken key ≠ some token → after.tokenDevice token = none
  known : ∀ token key, after.tokenDevice token = some key →
    before.tokenDevice token = some key ∨ gives before call = some (key, token)

/-- The tables of devices after a call: as they were, with a token given, or
with a device removed. -/
theorem perform_cases (accounts : Accounts) (call : Call) :
    (∃ between : Accounts, perform accounts call = between ∧
        between.deviceToken = accounts.deviceToken ∧
        between.tokenDevice = accounts.tokenDevice ∧
        (∀ key, between.deviceMetadata key = none →
          accounts.deviceMetadata key = none) ∧
        gives accounts call = none) ∨
      (∃ (between : Accounts) (key : DeviceKey) (token : String),
        perform accounts call = between.assigned key token ∧
        between.deviceToken = accounts.deviceToken ∧
        between.tokenDevice = accounts.tokenDevice ∧
        (∀ key, between.deviceMetadata key = none →
          accounts.deviceMetadata key = none) ∧
        (between.deviceMetadata key).isSome = true ∧
        gives accounts call = some (key, token)) ∨
      ∃ key : DeviceKey, perform accounts call =
        accounts.removeDevice key.1 key.2 ∧ gives accounts call = none := by
  cases call with
  | removeDevice key => exact .inr (.inr ⟨key, rfl, rfl⟩)
  | usersChange passwordHash =>
      exact .inl ⟨_, rfl, rfl, rfl, fun _ => id, rfl⟩
  | setToken settings key token =>
      simp only [perform, gives, setToken_eq]
      split
      next passes =>
        exact .inr (.inl ⟨accounts, key, token, rfl, rfl, rfl,
          fun _ => id, passes.1, rfl⟩)
      · exact .inl ⟨accounts, rfl, rfl, rfl, fun _ => id, rfl⟩
  | createDevice settings key token displayName clientIp =>
      simp only [perform, gives, createDevice]
      cases accounts.exists key.1 with
      | false => exact .inl ⟨accounts, rfl, rfl, rfl, fun _ => id, rfl⟩
      | true =>
          have kept : ∀ other, update accounts.deviceMetadata key
              (some ⟨displayName, clientIp⟩) other = none →
              accounts.deviceMetadata other = none := by
            intro other missing
            rw [update_apply] at missing
            split at missing
            · cases missing
            · exact missing
          have made : (update accounts.deviceMetadata key
              (some ⟨displayName, clientIp⟩) key).isSome = true := by
            rw [update_self]
            rfl
          simp only [Bool.not_true, Bool.false_eq_true, if_false, setToken_eq,
            true_and]
          cases settings.appserviceToken token with
          | true =>
              refine .inl ⟨_, if_neg (by simp), rfl, rfl, kept, rfl⟩
          | false =>
              exact .inr (.inl ⟨_, key, token, if_pos ⟨made, rfl⟩, rfl,
                rfl, kept, made, rfl⟩)

theorem Inverse.of_eq {between : Accounts} (inverse : Inverse accounts)
    (tokens : between.deviceToken = accounts.deviceToken)
    (devices : between.tokenDevice = accounts.tokenDevice)
    (metadata : ∀ key, between.deviceMetadata key = none →
      accounts.deviceMetadata key = none) : Inverse between := by
  constructor
  · intro token key
    rw [tokens, devices]
    exact inverse.authenticates token key
  · intro key missing
    rw [tokens]
    exact inverse.metadata key (metadata key missing)

theorem Settled.of_known {before after : Accounts} {call : Call}
    (inverse : Inverse before) (later : Inverse after)
    (known : ∀ token key, after.tokenDevice token = some key →
      before.tokenDevice token = some key ∨
        gives before call = some (key, token))
    (fresh : Fresh before call) : Settled before call after := by
  refine ⟨later, ?_, known⟩
  intro token key stored replaced
  by_contra stands
  obtain ⟨other, isOther⟩ := ne_none_iff_exists'.mp stands
  have same : other = key := by
    rcases known token other isOther with was | given
    · have holds := (inverse.authenticates token key).mpr stored
      rw [was] at holds
      exact some.inj holds
    · exact (fresh other token given key stored).symm
  rw [same] at isOther
  exact replaced ((later.authenticates token key).mp isOther)

theorem Inverse.settled_iff (inverse : Inverse accounts) (call : Call) :
    Settled accounts call (perform accounts call) ↔ Fresh accounts call := by
  obtain kept | given | removed := perform_cases accounts call
  · obtain ⟨between, isBetween, tokens, devices, metadata, none⟩ := kept
    have fresh : Fresh accounts call := by
      intro key token given
      rw [none] at given
      cases given
    refine iff_of_true (Settled.of_known inverse ?_ ?_ fresh) fresh
    · rw [isBetween]
      exact inverse.of_eq tokens devices metadata
    · intro token key stands
      rw [isBetween, devices] at stands
      exact .inl stands
  · obtain ⟨between, key, token, isBetween, tokens, devices, metadata, some_,
      isGiven⟩ := given
    have later := @Inverse.assigned_iff between key token
      (inverse.of_eq tokens devices metadata) some_
    rw [tokens] at later
    constructor
    · intro settled given to_ isGiven'
      rw [isGiven] at isGiven'
      cases isGiven'
      have after := settled.inverse
      rw [isBetween] at after
      exact later.mp after
    · intro fresh
      refine Settled.of_known inverse ?_ ?_ fresh
      · rw [isBetween]
        exact later.mpr (fresh key token isGiven)
      · intro held other stands
        rw [isBetween, tokenDevice_assigned, tokens, devices] at stands
        split at stands
        next isToken =>
          rw [isGiven, isToken, some.inj stands]
          exact .inr rfl
        · split at stands
          · cases stands
          · exact .inl stands
  · obtain ⟨key, isRemoved, none⟩ := removed
    have fresh : Fresh accounts call := by
      intro key token given
      rw [none] at given
      cases given
    refine iff_of_true (Settled.of_known inverse ?_ ?_ fresh) fresh
    · rw [isRemoved]
      exact inverse.removeDevice key
    · intro token other stands
      rw [isRemoved, tokenDevice_removeDevice] at stands
      split at stands
      · cases stands
      · exact .inl stands

def SettledThroughout : Accounts → List Call → Prop
  | _, [] => True
  | accounts, call :: rest =>
      Settled accounts call (perform accounts call) ∧
        SettledThroughout (perform accounts call) rest

def FreshThroughout : Accounts → List Call → Prop
  | _, [] => True
  | accounts, call :: rest =>
      Fresh accounts call ∧ FreshThroughout (perform accounts call) rest

theorem Inverse.throughout_iff (inverse : Inverse accounts)
    (calls : List Call) :
    SettledThroughout accounts calls ↔ FreshThroughout accounts calls := by
  induction calls generalizing accounts with
  | nil => exact Iff.rfl
  | cons call rest inductionHypothesis =>
      unfold SettledThroughout FreshThroughout
      rw [← inverse.settled_iff call]
      exact and_congr_right fun settled =>
        inductionHypothesis settled.inverse

def withoutDevices (accounts : Accounts) : Accounts :=
  { accounts with
    deviceMetadata := fun _ => none
    deviceToken := fun _ => none
    tokenDevice := fun _ => none }

theorem withoutDevices_inverse (accounts : Accounts) :
    Inverse (withoutDevices accounts) := by
  refine ⟨fun token key => ?_, fun _ _ => rfl⟩
  exact iff_of_false (fun none => by cases none) (fun none => by cases none)

/-- The tables stay inverse to each other as long as no device is given the
token of another. -/
theorem accessTokens_settled_iff (accounts : Accounts) (calls : List Call) :
    SettledThroughout (withoutDevices accounts) calls ↔
      FreshThroughout (withoutDevices accounts) calls :=
  (withoutDevices_inverse accounts).throughout_iff calls

def alice : UserId := ⟨"alice", "server"⟩

def bob : UserId := ⟨"bob", "server"⟩

def dehydratedDevices : List Call :=
  [.usersChange fun _ => some "hash",
    .createDevice asciiSettings (alice, "A") "" none none,
    .createDevice asciiSettings (bob, "B") "" none none]

/-- The token that Alice's device stores stands for Bob's. -/
theorem emptyToken_changes_hands :
    ¬ SettledThroughout (withoutDevices (oneAccount alice "password"))
      dehydratedDevices := by
  intro settled
  have stands := (settled.2.2.1.inverse.authenticates ""
    (alice, "A")).mpr (by decide +kernel)
  exact absurd stands (by decide +kernel)

end AccessTokens

end ArcanaServer.Users
