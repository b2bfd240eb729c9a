import ArcanaServer.Api.Register

namespace ArcanaServer.Api

open Library Users Threepid List EmailTables Function Accounts

/-! Registrations side by side, each as a whole or not at all. -/

structure Bound (grammar : Grammar) (emails : EmailTables)
    (localpart : Localpart) (normalized : String) : Prop where
  stored : ∃ stored, emails.localpartEmail.lookup localpart = some stored ∧
    grammar.normalizeEmail stored = normalized
  found : emails.emailLocalpart normalized = some localpart

abbrev accountsOf (server : Homeserver) : Accounts := server.services.accounts

abbrev emailsOf (server : Homeserver) : EmailTables := server.services.emails

/-- A call that has ended well has created an account that was not there before
and bound the address to it that it has verified; another call that has ended
has left nothing. -/
def RegisterCall.Settled (config : RegisterConfig) (server : Homeserver)
    (call : RegisterCall) : Prop :=
  match call.stage with
  | .ended (.ok response) => ∃ email, call.verified = some email ∧
      call.account = some ⟨response.userId, false⟩ ∧
      (accountsOf server).exists response.userId = true ∧
      Bound config.grammar (emailsOf server) response.userId.localpart
        (config.grammar.normalizeEmail email)
  | .ended (.error _) => call.account = none ∧ call.binding = none
  | _ => True

def RegisterCall.registered (call : RegisterCall) : Option UserId :=
  match call.stage with
  | .ended (.ok response) => some response.userId
  | _ => none

structure RegisterWorld.Atomic (config : RegisterConfig)
    (world : RegisterWorld) : Prop where
  settled : ∀ call ∈ world.calls, call.Settled config world.server
  once : ∀ (index other : Nat) (userId : UserId),
    world.calls[index]?.bind RegisterCall.registered = some userId →
    world.calls[other]?.bind RegisterCall.registered = some userId →
    index = other

def KeepsPasswords (before after : Homeserver) : Prop :=
  ∀ userId hash, (accountsOf before).passwordHash userId = some hash →
    (accountsOf after).passwordHash userId = some hash

def PasswordsKept (config : RegisterConfig)
    (history : List (Entry RegisterWorld RegisterAction Unit)) : Prop :=
  ∀ entry ∈ history, KeepsPasswords entry.before.server
    (entry.before.step config entry.input).1.server

/-- An account is created where there is none, its address is nobody else's
from then until it is bound, and what comes after the creation does not
fail. -/
def RegisterStage.Smooth (config : RegisterConfig) (outside : RegisterOutside)
    (server : Homeserver) (request : RegisterRequest) :
    RegisterStage → Prop
  | .create userId _ =>
      config.grammar.userIsLocal userId = true →
      (outside.users.hashPassword request.password).isOk = true →
      (accountsOf server).exists userId = false
  | .bindCheck userId email =>
      ∀ owner ∈ ((emailsOf server).getLocalpartForEmail config.grammar
        (config.grammar.normalizeEmail email)).1, owner = userId.localpart
  | .bindScan userId email | .bindWrite userId email =>
      ∀ owner ∈ (emailsOf server).findLocalpartsForNormalizedEmail
        config.grammar (config.grammar.normalizeEmail email),
        owner = userId.localpart
  | .profile userId _ => (outside.updatePushRules userId).isOk = true
  | .device _ _ => request.inhibitLogin = true ∨
      config.client.settings.appserviceToken outside.newToken = false
  | .empower userId _ _ _ => (outside.empowerFirstUser userId).isOk = true
  | .emailCheck _ | .userCheck _ | .lowercaseCheck _ | .randomCheck
  | .exclusiveCheck _ | .consume _ | .ended _ => True

instance (config : RegisterConfig) (outside : RegisterOutside)
    (server : Homeserver) (request : RegisterRequest) :
    DecidablePred (RegisterStage.Smooth config outside server request)
  | .create _ _ => inferInstanceAs (Decidable (_ = true → _ = true → _))
  | .bindCheck _ _ | .bindScan _ _ | .bindWrite _ _ =>
      inferInstanceAs (Decidable (∀ owner ∈ _, owner = _))
  | .profile _ _ | .empower _ _ _ _ => inferInstanceAs (Decidable (_ = true))
  | .device _ _ => inferInstanceAs (Decidable (_ ∨ _))
  | .emailCheck _ | .userCheck _ | .lowercaseCheck _ | .randomCheck
  | .exclusiveCheck _ | .consume _ | .ended _ => isTrue trivial

def RegisterWorld.Smooth (config : RegisterConfig) (world : RegisterWorld) :
    RegisterAction → Prop
  | .start _ _ _ => True
  | .advance index outside => ∀ call ∈ world.calls[index]?,
      call.stage.Smooth config outside world.server call.request

instance (config : RegisterConfig) (world : RegisterWorld) :
    DecidablePred (world.Smooth config)
  | .start _ _ _ => isTrue trivial
  | .advance index _ =>
      inferInstanceAs (Decidable (∀ call ∈ world.calls[index]?, _))

section

variable {settings : Settings} {outside : Outside} {accounts after : Accounts}
  {userId : UserId}

theorem create_ok {password : String}
    (created : accounts.create settings outside userId (some password) none =
      (.ok (), after)) :
    settings.grammar.userIsLocal userId = true ∧
      ∃ hash, outside.hashPassword password = .ok hash ∧ after.passwordHash =
          update accounts.passwordHash userId (some hash) := by
  unfold Accounts.create at created
  split at created
  · cases created
  next isLocal =>
    unfold setPassword at created
    split at created
    · cases created
    · simp only at created
      split at created
      · cases created
      next hash hashed =>
        cases created
        refine ⟨?_, hash, hashed, rfl⟩
        simpa using isLocal

theorem create_error {password : String} {error : Users.Error}
    (refused : accounts.create settings outside userId (some password) none =
      (.error error, after)) :
    after.passwordHash = accounts.passwordHash := by
  unfold Accounts.create at refused
  split at refused
  · cases refused
    rfl
  · unfold setPassword at refused
    split at refused
    · cases refused
      rfl
    · simp only at refused
      split at refused
      · cases refused
        rfl
      · cases refused

theorem createDevice_passwordHash {deviceId : DeviceId} {token : String}
    {displayName clientIp : Option String} :
    (accounts.createDevice settings userId deviceId token displayName
      clientIp).2.passwordHash = accounts.passwordHash := by
  unfold createDevice
  split
  · rfl
  · unfold setToken
    simp only
    split
    · rfl
    · split
      · rfl
      · rfl

theorem createDevice_ok {deviceId : DeviceId} {token : String}
    {displayName clientIp : Option String}
    (present : accounts.exists userId = true)
    (unreserved : settings.appserviceToken token = false) :
    (accounts.createDevice settings userId deviceId token displayName
      clientIp).1 = .ok () := by
  unfold createDevice
  rw [if_neg (by simp [present])]
  unfold setToken
  simp [unreserved]

end

theorem KeepsPasswords.refl (server : Homeserver) :
    KeepsPasswords server server :=
  fun _ _ found => found

theorem KeepsPasswords.exists {before after : Homeserver}
    (keeps : KeepsPasswords before after) {userId : UserId}
    (present : (accountsOf before).exists userId = true) :
    (accountsOf after).exists userId = true := by
  obtain ⟨hash, found⟩ := Option.isSome_iff_exists.mp present
  exact Option.isSome_iff_exists.mpr ⟨hash, keeps userId hash found⟩

def RegisterCall.StageFits (config : RegisterConfig) (call : RegisterCall) :
    Prop :=
  match call.stage with
  | .create _ email =>
      call.account = none ∧ call.binding = none ∧ call.verified = some email
  | .bindCheck userId email | .bindScan userId email
  | .bindWrite userId email =>
      call.account = some ⟨userId, false⟩ ∧ call.binding = none ∧
        call.verified = some email
  | .profile userId email | .device userId email
  | .empower userId email _ _ =>
      call.account = some ⟨userId, false⟩ ∧ call.verified = some email ∧
        call.binding =
          some (userId.localpart, config.grammar.normalizeEmail email)
  | .ended (.ok response) => ∃ email,
      call.account = some ⟨response.userId, false⟩ ∧
        call.verified = some email ∧
        call.binding = some (response.userId.localpart,
          config.grammar.normalizeEmail email)
  | _ => call.account = none ∧ call.binding = none

structure RegisterCall.Fits (config : RegisterConfig) (server : Homeserver)
    (call : RegisterCall) : Prop where
  account : ∀ account ∈ call.account, account.existed = false ∧
    (accountsOf server).exists account.userId = true ∧
    config.grammar.userIsLocal account.userId = true
  binding : ∀ binding ∈ call.binding,
    Bound config.grammar (emailsOf server) binding.1 binding.2 ∧
      ∃ account ∈ call.account, account.userId.localpart = binding.1
  stage : call.StageFits config

/-- The rows of the reverse table that no call has written agree with the
addresses of the accounts. -/
def RegisterWorld.RowsAgree (config : RegisterConfig)
    (calls : List RegisterCall) (emails : EmailTables) : Prop :=
  ∀ normalized owner, emails.emailLocalpart normalized = some owner →
    (∃ stored, emails.localpartEmail.lookup owner = some stored ∧
      config.grammar.normalizeEmail stored = normalized) ∨
    ∃ call ∈ calls, ∃ binding ∈ call.binding, binding.1 = owner

structure RegisterWorld.Inv (config : RegisterConfig)
    (world : RegisterWorld) : Prop where
  fits : ∀ call ∈ world.calls, call.Fits config world.server
  single : ∀ (index other : Nat) (call rival : RegisterCall)
    (account created : NewAccount),
    world.calls[index]? = some call → world.calls[other]? = some rival →
    call.account = some account → rival.account = some created →
    account.userId = created.userId → index = other
  distinct : (emailsOf world.server).Distinct config.grammar
  rows : RowsAgree config world.calls (emailsOf world.server)

namespace RegisterWorld

variable {config : RegisterConfig}

variable {world : RegisterWorld}

theorem Inv.settled (inv : world.Inv config) {call : RegisterCall}
    (member : call ∈ world.calls) : call.Settled config world.server := by
  have fits := inv.fits call member
  have stage := fits.stage
  unfold RegisterCall.Settled
  unfold RegisterCall.StageFits at stage
  split
  next response isEnded =>
    rw [isEnded] at stage
    obtain ⟨email, account, verified, binding⟩ := stage
    exact ⟨email, verified, account,
      (fits.account _ account).2.1, (fits.binding _ binding).1⟩
  next isEnded =>
    rw [isEnded] at stage
    exact stage
  · trivial

theorem Inv.atomic (inv : world.Inv config) : world.Atomic config where
  settled := fun _ member => inv.settled member
  once := by
    have created : ∀ (index : Nat) userId,
        world.calls[index]?.bind RegisterCall.registered = some userId →
        ∃ call, world.calls[index]? = some call ∧
          call.account = some ⟨userId, false⟩ := by
      intro index userId registered
      obtain ⟨call, atIndex, registered⟩ := Option.bind_eq_some_iff.mp registered
      have stage := (inv.fits call (mem_of_getElem? atIndex)).stage
      unfold RegisterCall.registered at registered
      unfold RegisterCall.StageFits at stage
      split at registered
      next response isEnded =>
        cases registered
        rw [isEnded] at stage
        obtain ⟨_, account, _⟩ := stage
        exact ⟨call, atIndex, account⟩
      · cases registered
    intro index other userId registered also
    obtain ⟨call, atIndex, account⟩ := created index userId registered
    obtain ⟨rival, atOther, alsoAccount⟩ := created other userId also
    exact inv.single index other call rival _ _ atIndex atOther account
      alsoAccount rfl

theorem Inv.advance (inv : world.Inv config) {index : Nat}
    {call next : RegisterCall} {server : Homeserver}
    (atIndex : world.calls[index]? = some call) (fits : next.Fits config server)
    (others : ∀ other rival, other ≠ index →
      world.calls[other]? = some rival → rival.Fits config server)
    (fresh : next.account = call.account ∨ ∀ account ∈ next.account,
      (accountsOf world.server).exists account.userId = false)
    (distinct : (emailsOf server).Distinct config.grammar)
    (kept : call.binding = none ∨ next.binding = call.binding)
    (rows : ∀ normalized owner,
      (emailsOf server).emailLocalpart normalized = some owner →
      (emailsOf world.server).emailLocalpart normalized = some owner ∧
        (emailsOf server).localpartEmail.lookup owner =
          (emailsOf world.server).localpartEmail.lookup owner ∨
      (∃ stored, (emailsOf server).localpartEmail.lookup owner = some stored ∧
        config.grammar.normalizeEmail stored = normalized) ∨
      ∃ binding ∈ next.binding, binding.1 = owner) :
    Inv config { server, calls := world.calls.set index next } := by
  have inside : index < world.calls.length :=
    (List.getElem?_eq_some_iff.mp atIndex).1
  have self : (world.calls.set index next)[index]? = some next :=
    List.getElem?_set_self inside
  have apart : ∀ other, other ≠ index →
      (world.calls.set index next)[other]? = world.calls[other]? :=
    fun other differs => List.getElem?_set_ne (Ne.symm differs)
  have clash : ∀ other rival account created, other ≠ index →
      world.calls[other]? = some rival → next.account = some account →
      rival.account = some created → account.userId ≠ created.userId := by
    intro other rival account created differs atOther isAccount isCreated same
    rcases fresh with unchanged | fresh
    · exact differs (inv.single index other call rival account created
        atIndex atOther (unchanged ▸ isAccount) isCreated same).symm
    · have absent := fresh account isAccount
      have present := ((inv.fits rival
        (mem_of_getElem? atOther)).account created isCreated).2.1
      rw [same, present] at absent
      cases absent
  refine ⟨?_, ?_, distinct, ?_⟩
  · intro member inMembers
    obtain ⟨other, atOther⟩ := mem_iff_getElem?.mp inMembers
    by_cases here : other = index
    · rw [here, self] at atOther
      cases atOther
      exact fits
    · rw [apart other here] at atOther
      exact others other member here atOther
  · intro first second call rival account created atFirst atSecond isAccount
      isCreated same
    by_cases isFirst : first = index <;> by_cases isSecond : second = index
    · exact isFirst.trans isSecond.symm
    · rw [isFirst, self] at atFirst
      rw [apart second isSecond] at atSecond
      cases atFirst
      exact absurd same
        (clash second rival _ _ isSecond atSecond isAccount isCreated)
    · rw [isSecond, self] at atSecond
      rw [apart first isFirst] at atFirst
      cases atSecond
      exact absurd same.symm
        (clash first call _ _ isFirst atFirst isCreated isAccount)
    · rw [apart first isFirst] at atFirst
      rw [apart second isSecond] at atSecond
      exact inv.single first second call rival account created atFirst
        atSecond isAccount isCreated same
  · intro normalized owner found
    obtain ⟨old, sameStored⟩ | stored | ⟨binding, bound, isOwner⟩ :=
      rows normalized owner found
    · obtain ⟨stored, owns, same⟩ | ⟨writer, member, binding, bound, isOwner⟩ :=
        inv.rows normalized owner old
      · exact .inl ⟨stored, sameStored.trans owns, same⟩
      · right
        obtain ⟨other, atOther⟩ := mem_iff_getElem?.mp member
        by_cases here : other = index
        · rw [here, atIndex] at atOther
          cases atOther
          rcases kept with unbound | sameBinding
          · rw [unbound] at bound
            cases bound
          · exact ⟨next, mem_of_getElem? self, binding,
              sameBinding ▸ bound, isOwner⟩
        · exact ⟨writer, mem_of_getElem? ((apart other here).trans
            atOther), binding, bound, isOwner⟩
    · exact .inl stored
    · exact .inr ⟨next, mem_of_getElem? self, binding, bound, isOwner⟩

end RegisterWorld

/-- The reverse table has gained at most rows for addresses that are stored. -/
structure Repairs (grammar : Grammar) (before after : EmailTables) : Prop where
  same : after.localpartEmail = before.localpartEmail
  kept : ∀ normalized owner, before.emailLocalpart normalized = some owner →
    after.emailLocalpart normalized = some owner
  new : ∀ normalized owner, after.emailLocalpart normalized = some owner →
    before.emailLocalpart normalized = some owner ∨
    ∃ stored, before.localpartEmail.lookup owner = some stored ∧
      grammar.normalizeEmail stored = normalized

namespace Repairs

variable {grammar : Grammar} {before after : EmailTables}

theorem refl (emails : EmailTables) : Repairs grammar emails emails :=
  ⟨rfl, fun _ _ found => found, fun _ _ found => .inl found⟩

theorem getLocalpartForEmail (emails : EmailTables) (email : String) :
    Repairs grammar emails (emails.getLocalpartForEmail grammar email).2 := by
  unfold EmailTables.getLocalpartForEmail
  simp only
  split
  · exact refl emails
  next absent =>
    split
    next localpart matching =>
      refine ⟨rfl, fun normalized owner found => ?_, ?_⟩
      · have differs : normalized ≠ grammar.normalizeEmail email := by
          intro here
          rw [here, absent] at found
          cases found
        exact (update_of_ne differs _ _).trans found
      · intro normalized owner found
        refine (update_eq_some found).imp id fun new => ?_
        rw [new.1, new.2]
        apply mem_findLocalparts
        rw [matching]
        exact mem_singleton_self localpart
    · exact refl emails

theorem bound (repairs : Repairs grammar before after)
    {localpart : Localpart} {normalized : String}
    (bound : Bound grammar before localpart normalized) :
    Bound grammar after localpart normalized where
  stored := by
    rw [repairs.same]
    exact bound.stored
  found := repairs.kept _ _ bound.found

end Repairs

namespace RegisterWorld

variable {config : RegisterConfig} {world : RegisterWorld} {index : Nat}
  {call next : RegisterCall} {server : Homeserver}

section

variable (inv : world.Inv config) (atIndex : world.calls[index]? = some call)
  (keeps : KeepsPasswords world.server server)
  (repairs : Repairs config.grammar (emailsOf world.server) (emailsOf server))
  (account : next.account = call.account)
include inv atIndex keeps repairs account

theorem Inv.repaired (kept : call.binding = none ∨ next.binding = call.binding)
    (bound : ∀ binding ∈ next.binding,
      Bound config.grammar (emailsOf server) binding.1 binding.2 ∧
        ∃ account ∈ next.account, account.userId.localpart = binding.1)
    (stage : next.StageFits config) :
    Inv config { server, calls := world.calls.set index next } := by
  have fits := inv.fits call (mem_of_getElem? atIndex)
  have accounts : ∀ rival : RegisterCall, rival.Fits config world.server →
      ∀ account ∈ rival.account, account.existed = false ∧
        (accountsOf server).exists account.userId = true ∧
        config.grammar.userIsLocal account.userId = true := by
    intro rival fits account isAccount
    obtain ⟨new, present, isLocal⟩ := fits.account account isAccount
    exact ⟨new, keeps.exists present, isLocal⟩
  apply inv.advance atIndex
  · exact ⟨account ▸ accounts call fits, bound, stage⟩
  · intro other rival _ atOther
    have rivalFits := inv.fits rival (mem_of_getElem? atOther)
    refine ⟨accounts rival rivalFits, fun binding isBinding => ?_,
      rivalFits.stage⟩
    obtain ⟨bound, owner⟩ := rivalFits.binding binding isBinding
    exact ⟨repairs.bound bound, owner⟩
  · exact .inl account
  · intro left right stored other
    rw [repairs.same]
    exact inv.distinct left right stored other
  · exact kept
  · intro normalized owner found
    rw [repairs.same]
    refine (repairs.new normalized owner found).imp (fun old => ⟨old, rfl⟩)
      fun stored => .inl stored

theorem Inv.quiet (binding : next.binding = call.binding)
    (stage : next.StageFits config) :
    Inv config { server, calls := world.calls.set index next } := by
  have fits := inv.fits call (mem_of_getElem? atIndex)
  apply inv.repaired atIndex keeps repairs account (.inr binding) ?_ stage
  rw [binding, account]
  intro bound isBound
  obtain ⟨isBinding, owner⟩ := fits.binding bound isBound
  exact ⟨repairs.bound isBinding, owner⟩

end

/-- What one step of a call leaves. -/
structure Goes (config : RegisterConfig) (world : RegisterWorld)
    (index : Nat) (result : RegisterCall × Homeserver) : Prop where
  inv : Inv config
    { server := result.2, calls := world.calls.set index result.1 }
  keeps : KeepsPasswords world.server result.2

section

variable {userId : UserId} {email : Address} {outside : RegisterOutside}

section

variable (inv : world.Inv config) (atIndex : world.calls[index]? = some call)
include inv atIndex

theorem Inv.goTo {stage : RegisterStage}
    (fits : (call.goTo stage).StageFits config) :
    Goes config world index (call.goTo stage, world.server) where
  inv := inv.quiet atIndex (.refl _) (.refl _) rfl rfl fits
  keeps := .refl _

theorem Inv.checkEmail (text : String) {stage : RegisterStage}
    (fits : (call.goTo stage).StageFits config) :
    Goes config world index
      (call.goTo stage, (RegisterCall.checkEmail config world.server text).2)
    where
  inv := inv.quiet atIndex (.refl _)
    (.getLocalpartForEmail (emailsOf world.server) text) rfl rfl fits
  keeps := .refl _

theorem Inv.checkUser (bare : call.account = none ∧ call.binding = none)
    (suppliedUsername : Option String) :
    Goes config world index
      (call.checkUser config world.server suppliedUsername, world.server) := by
  unfold RegisterCall.checkUser
  split
  · exact inv.goTo atIndex bare
  · split
    · exact inv.goTo atIndex bare
    · split
      · exact inv.goTo atIndex bare
      · exact inv.goTo atIndex bare

theorem Inv.checkRandom (bare : call.account = none ∧ call.binding = none) :
    Goes config world index
      (call.checkRandom config outside world.server, world.server) := by
  unfold RegisterCall.checkRandom
  split
  · exact inv.goTo atIndex bare
  · split
    · exact inv.goTo atIndex bare
    · exact inv.goTo atIndex bare

theorem Inv.consumeSession (bare : call.account = none ∧ call.binding = none) :
    Goes config world index
      (call.consumeSession config world.server userId) := by
  unfold RegisterCall.consumeSession
  simp only
  split
  · exact ⟨inv.quiet atIndex (.refl _) (.refl _) rfl rfl bare, .refl _⟩
  · split
    · exact ⟨inv.quiet atIndex (.refl _) (.refl _) rfl rfl bare, .refl _⟩
    · exact ⟨inv.quiet atIndex (.refl _) (.refl _) rfl rfl
        ⟨bare.1, bare.2, rfl⟩, .refl _⟩

theorem Inv.createAccount (bare : call.account = none ∧ call.binding = none)
    (verified : call.verified = some email)
    (smooth : config.grammar.userIsLocal userId = true →
      (outside.users.hashPassword call.request.password).isOk = true →
      (accountsOf world.server).exists userId = false) :
    Goes config world index
      (call.createAccount config outside world.server userId email) := by
  unfold RegisterCall.createAccount
  simp only
  split
  next error refused =>
    have same := create_error (Prod.ext refused rfl)
    have keeps : KeepsPasswords world.server { world.server with
        services := { world.server.services with
          accounts := (world.server.services.accounts.create
            config.client.settings outside.users userId
            (some call.request.password) none).2 } } :=
      fun other hash found => (congrFun same other).trans found
    exact ⟨inv.quiet atIndex keeps (.refl _) rfl rfl bare, keeps⟩
  next created =>
    obtain ⟨isLocal, hash, hashed, written⟩ := create_ok (Prod.ext created rfl)
    have absent : world.server.services.accounts.exists userId = false :=
      smooth isLocal (by rw [hashed]; rfl)
    have keeps : KeepsPasswords world.server { world.server with
        services := { world.server.services with
          accounts := (world.server.services.accounts.create
            config.client.settings outside.users userId
            (some call.request.password) none).2 } } := by
      intro other old found
      have differs : other ≠ userId := by
        intro here
        subst here
        have present : world.server.services.accounts.exists other = true :=
          Option.isSome_iff_exists.mpr ⟨old, found⟩
        rw [absent] at present
        cases present
      exact ((congrFun written other).trans
        (update_of_ne differs _ _)).trans found
    rw [absent]
    refine ⟨?_, keeps⟩
    apply inv.advance atIndex
    · refine ⟨?_, fun binding isBinding => ?_, ⟨rfl, bare.2, verified⟩⟩
      · intro account isAccount
        cases isAccount
        have present := (congrFun written userId).trans (update_self _ _ _)
        exact ⟨rfl, Option.isSome_iff_exists.mpr ⟨hash, present⟩, isLocal⟩
      · rw [show _ = none from bare.2] at isBinding
        cases isBinding
    · intro other rival _ atOther
      have fits := inv.fits rival (mem_of_getElem? atOther)
      refine ⟨fun account isAccount => ?_, fits.binding, fits.stage⟩
      obtain ⟨new, present, isLocal⟩ := fits.account account isAccount
      exact ⟨new, keeps.exists present, isLocal⟩
    · right
      intro account isAccount
      cases isAccount
      exact absent
    · exact inv.distinct
    · exact .inr rfl
    · exact fun _ _ found => .inl ⟨found, rfl⟩

theorem Inv.setProfile
    (fits : (call.goTo (.device userId email)).StageFits config)
    (smooth : (outside.updatePushRules userId).isOk = true) :
    Goes config world index
      (call.setProfile config outside world.server userId email) := by
  unfold RegisterCall.setProfile
  simp only
  split
  next failed =>
    rw [failed] at smooth
    cases smooth
  · exact ⟨inv.quiet atIndex (.refl _) (.refl _) rfl rfl fits, .refl _⟩

theorem Inv.addDevice
    (fits : (call.goTo (.device userId email)).StageFits config)
    (smooth : call.request.inhibitLogin = true ∨
      config.client.settings.appserviceToken outside.newToken = false) :
    Goes config world index
      (call.addDevice config outside world.server userId email) := by
  unfold RegisterCall.addDevice
  split
  · exact ⟨inv.quiet atIndex (.refl _) (.refl _) rfl rfl fits, .refl _⟩
  next wanted =>
    have unreserved := smooth.resolve_left wanted
    have present : world.server.services.accounts.exists userId = true :=
      ((inv.fits call (mem_of_getElem? atIndex)).account
        ⟨userId, false⟩ fits.1).2.1
    simp only
    rw [createDevice_ok present unreserved]
    have keeps : KeepsPasswords world.server { world.server with
        services := { world.server.services with
          accounts := (world.server.services.accounts.createDevice
            config.client.settings userId
            (call.request.deviceId.getD outside.users.randomDeviceId)
            outside.newToken call.request.initialDeviceDisplayName
            (some call.client)).2 } } :=
      fun other hash found =>
        (congrFun createDevice_passwordHash other).trans found
    exact ⟨inv.quiet atIndex keeps (.refl _) rfl rfl fits, keeps⟩

theorem Inv.empowerUser
    (fits : (call.goTo (.device userId email)).StageFits config)
    (smooth : (outside.empowerFirstUser userId).isOk = true)
    (token : Option String) (device : Option DeviceId) :
    Goes config world index
      (call.empowerUser config outside world.server userId token device) := by
  unfold RegisterCall.empowerUser
  split
  next failed =>
    rw [failed] at smooth
    cases smooth
  · exact ⟨inv.quiet atIndex (.refl _) (.refl _) rfl rfl ⟨email, fits⟩, .refl _⟩

theorem Inv.sameCall (account : call.account = some ⟨userId, false⟩)
    {other : Nat} {rival : RegisterCall}
    (atOther : world.calls[other]? = some rival) {created : NewAccount}
    (isCreated : created ∈ rival.account)
    (same : created.userId.localpart = userId.localpart) : other = index := by
  have isLocal := ((inv.fits call
    (mem_of_getElem? atIndex)).account _ account).2.2
  have alsoLocal := ((inv.fits rival
    (mem_of_getElem? atOther)).account _ isCreated).2.2
  have sameServer : created.userId.serverName = userId.serverName :=
    (of_decide_eq_true alsoLocal).trans (of_decide_eq_true isLocal).symm
  have sameUser : created.userId = userId := by
    cases created with
    | mk createdUser _ =>
        cases createdUser
        cases userId
        cases same
        cases sameServer
        rfl
  exact inv.single other index rival call created _ atOther atIndex isCreated
    account sameUser

end

theorem found_getLocalpartForEmail {grammar : Grammar} {emails : EmailTables}
    {text : String} {owner : Localpart}
    (found : (emails.getLocalpartForEmail grammar text).1 = some owner) :
    (emails.getLocalpartForEmail grammar text).2.emailLocalpart
        (grammar.normalizeEmail text) = some owner ∧
      (emails.emailLocalpart (grammar.normalizeEmail text) = some owner ∨
        ∃ stored, emails.localpartEmail.lookup owner = some stored ∧
          grammar.normalizeEmail stored = grammar.normalizeEmail text) := by
  unfold EmailTables.getLocalpartForEmail at found ⊢
  simp only at found ⊢
  split
  next known isKnown =>
    rw [isKnown] at found
    cases found
    exact ⟨isKnown, .inl isKnown⟩
  next absent =>
    rw [absent] at found
    simp only at found
    split
    next localpart matching =>
      rw [matching] at found
      cases found
      refine ⟨update_self _ _ _, .inr ?_⟩
      apply mem_findLocalparts
      rw [matching]
      exact mem_singleton_self _
    next other =>
      split at found
      next localpart matching => exact absurd matching (other localpart)
      · cases found

section

variable (normalizes : ∀ text, config.grammar.normalizeEmail
  (config.grammar.normalizeEmail text) = config.grammar.normalizeEmail text)

include normalizes

theorem Inv.checkBinding (inv : world.Inv config)
    (atIndex : world.calls[index]? = some call)
    (fits : (call.goTo (.bindScan userId email)).StageFits config)
    (smooth : ∀ owner ∈ ((emailsOf world.server).getLocalpartForEmail
      config.grammar (config.grammar.normalizeEmail email)).1,
      owner = userId.localpart) :
    Goes config world index
      (call.checkBinding config world.server userId email) := by
  obtain ⟨account, binding, verified⟩ := fits
  have repairs := @Repairs.getLocalpartForEmail config.grammar
    (emailsOf world.server) (config.grammar.normalizeEmail email)
  unfold RegisterCall.checkBinding RegisterCall.checkEmail
  simp only
  split
  next owner found =>
    have isOwn := smooth owner found
    rw [if_neg (not_not.mpr isOwn)]
    refine ⟨?_, .refl _⟩
    obtain ⟨row, old⟩ := found_getLocalpartForEmail found
    rw [normalizes, isOwn] at row old
    have stored : ∃ stored, (emailsOf world.server).localpartEmail.lookup
        userId.localpart = some stored ∧
        config.grammar.normalizeEmail stored =
          config.grammar.normalizeEmail email := by
      rcases old with old | stored
      · refine (inv.rows _ _ old).resolve_right ?_
        rintro ⟨writer, member, bound, isBound, isOwner⟩
        obtain ⟨created, isCreated, same⟩ :=
          ((inv.fits writer member).binding bound isBound).2
        obtain ⟨other, atOther⟩ := mem_iff_getElem?.mp member
        have here := inv.sameCall atIndex account atOther isCreated
          (same.trans isOwner)
        rw [here, atIndex] at atOther
        cases atOther
        rw [show call.binding = none from binding] at isBound
        cases isBound
      · exact stored
    refine inv.repaired atIndex (.refl _) repairs rfl (.inl binding) ?_ ?_
    · intro bound isBound
      cases isBound
      exact ⟨⟨repairs.same ▸ stored, row⟩, ⟨userId, false⟩, account, rfl⟩
    · exact ⟨account, verified, rfl⟩
  · exact ⟨inv.quiet atIndex (.refl _) repairs rfl rfl
      ⟨account, binding, verified⟩, .refl _⟩

section

variable (inv : world.Inv config) (atIndex : world.calls[index]? = some call)
  (fits : (call.goTo (.bindScan userId email)).StageFits config)
  (smooth : ∀ owner ∈ (emailsOf world.server).findLocalpartsForNormalizedEmail
    config.grammar (config.grammar.normalizeEmail email), owner =
    userId.localpart)
include inv atIndex fits smooth

omit normalizes in
theorem Inv.scanBinding : Goes config world index
      (call.scanBinding config world.server userId email, world.server) := by
  unfold RegisterCall.scanBinding
  rw [if_neg]
  · exact inv.goTo atIndex fits
  · simpa using smooth

theorem Inv.writeBinding : Goes config world index
      (call.writeBinding config world.server userId email) := by
  obtain ⟨account, binding, verified⟩ := fits
  have free : ∀ owner stored,
      (emailsOf world.server).localpartEmail.lookup owner = some stored →
      config.grammar.normalizeEmail stored =
        config.grammar.normalizeEmail email → owner = userId.localpart := by
    intro owner stored owns same
    apply smooth
    rw [inv.distinct.findLocalparts owns same]
    exact mem_singleton_self owner
  have callFits := inv.fits call (mem_of_getElem? atIndex)
  refine ⟨?_, .refl _⟩
  apply inv.advance atIndex
  · refine ⟨callFits.account, fun bound isBound => ?_, ⟨account, verified, rfl⟩⟩
    cases isBound
    exact ⟨⟨⟨_, AList.lookup_insert _, normalizes email⟩,
      update_self _ _ _⟩, ⟨userId, false⟩, account, rfl⟩
  · intro other rival differs atOther
    have rivalFits := inv.fits rival (mem_of_getElem? atOther)
    refine ⟨rivalFits.account, fun bound isBound => ?_, rivalFits.stage⟩
    obtain ⟨⟨⟨stored, owns, same⟩, row⟩, created, isCreated, isOwner⟩ :=
      rivalFits.binding bound isBound
    have another : bound.1 ≠ userId.localpart := fun here =>
      differs (inv.sameCall atIndex account atOther isCreated
        (isOwner.trans here))
    refine ⟨⟨⟨stored, ?_, same⟩, ?_⟩, created, isCreated, isOwner⟩
    · exact (AList.lookup_insert_ne another).trans
        ((lookup_disassociate_of_ne another).trans owns)
    · have elsewhere : bound.2 ≠ config.grammar.normalizeEmail email :=
        fun here => another (free bound.1 stored owns (same.trans here))
      refine (update_of_ne elsewhere _ _).trans ?_
      obtain kept | ⟨_, own, isOwn, sameOwn⟩ :=
        @emailLocalpart_disassociate config.grammar
          (emailsOf world.server) userId.localpart bound.2
      · exact kept.trans row
      · exact absurd (inv.distinct _ _ stored own owns isOwn
          (same.trans sameOwn.symm)) another
  · exact .inl rfl
  · exact (inv.distinct.disassociate userId.localpart).insertEmail
      (normalizes email) (fun owner stored owns =>
        free owner stored (lookup_disassociate owns))
  · exact .inl binding
  · intro normalized owner found
    by_cases here : owner = userId.localpart
    · exact .inr (.inr ⟨_, rfl, here.symm⟩)
    · left
      obtain old | ⟨_, isNew⟩ := update_eq_some found
      · refine ⟨?_, (AList.lookup_insert_ne here).trans
          (lookup_disassociate_of_ne here)⟩
        obtain kept | ⟨gone, _⟩ := @emailLocalpart_disassociate config.grammar
            (emailsOf world.server) userId.localpart normalized
        · exact kept.symm.trans old
        · cases gone.symm.trans old
      · exact absurd isNew here

end

theorem Inv.proceed (inv : world.Inv config)
    (atIndex : world.calls[index]? = some call)
    (smooth : call.stage.Smooth config outside world.server call.request) :
    Goes config world index (call.proceed config outside world.server) := by
  have fits := (inv.fits call (mem_of_getElem? atIndex)).stage
  unfold RegisterCall.proceed
  unfold RegisterCall.StageFits at fits
  unfold RegisterStage.Smooth at smooth
  cases stage : call.stage <;> simp only [stage] at fits smooth ⊢
  case emailCheck suppliedUsername =>
      split
      · exact inv.checkEmail atIndex call.request.email fits
      · exact inv.checkEmail atIndex call.request.email fits
  case userCheck suppliedUsername =>
      exact inv.checkUser atIndex fits suppliedUsername
  case lowercaseCheck userId =>
      split
      · exact inv.goTo atIndex fits
      · exact inv.goTo atIndex fits
  case randomCheck => exact inv.checkRandom atIndex fits
  case exclusiveCheck userId =>
      split
      · exact inv.goTo atIndex fits
      · exact inv.goTo atIndex fits
  case consume userId => exact inv.consumeSession atIndex fits
  case create userId email =>
      exact inv.createAccount atIndex ⟨fits.1, fits.2.1⟩ fits.2.2 smooth
  case bindCheck userId email =>
      exact inv.checkBinding normalizes atIndex fits smooth
  case bindScan userId email => exact inv.scanBinding atIndex fits smooth
  case bindWrite userId email =>
      exact inv.writeBinding normalizes atIndex fits smooth
  case profile userId email => exact inv.setProfile atIndex fits smooth
  case device userId email => exact inv.addDevice atIndex fits smooth
  case empower userId email token device =>
      exact inv.empowerUser atIndex fits smooth token device
  case ended result =>
      refine ⟨inv.quiet atIndex (.refl _) (.refl _) rfl rfl ?_, .refl _⟩
      exact (inv.fits call (mem_of_getElem? atIndex)).stage

end

end

theorem Inv.start (inv : world.Inv config)
    (bare : call.account = none ∧ call.binding = none)
    (stage : call.StageFits config) :
    Inv config { world with calls := world.calls ++ [call] } where
  fits := by
    intro member inside
    rcases mem_append.mp inside with old | new
    · exact inv.fits member old
    · rw [mem_singleton.mp new]
      refine ⟨fun account isAccount => ?_, fun binding isBinding => ?_, stage⟩
      · rw [bare.1] at isAccount
        cases isAccount
      · rw [bare.2] at isBinding
        cases isBinding
  single := by
    have old : ∀ (index : Nat) (member : RegisterCall) account,
        (world.calls ++ [call])[index]? = some member →
        member.account = some account →
        world.calls[index]? = some member := by
      intro index member account atIndex isAccount
      rw [List.getElem?_append] at atIndex
      split at atIndex
      · exact atIndex
      · have new := mem_singleton.mp (mem_of_getElem? atIndex)
        rw [new, bare.1] at isAccount
        cases isAccount
    intro index other member rival account created atIndex atOther isAccount
      isCreated
    exact inv.single index other member rival account created
      (old _ _ _ atIndex isAccount) (old _ _ _ atOther isCreated) isAccount
      isCreated
  distinct := inv.distinct
  rows := by
    intro normalized owner found
    refine (inv.rows normalized owner found).imp id ?_
    rintro ⟨writer, member, binding, bound, isOwner⟩
    exact ⟨writer, mem_append_left _ member, binding, bound, isOwner⟩

section

variable (normalizes : ∀ text, config.grammar.normalizeEmail
  (config.grammar.normalizeEmail text) = config.grammar.normalizeEmail text)

include normalizes

theorem Inv.step (inv : world.Inv config) (action : RegisterAction)
    (smooth : world.Smooth config action) :
    Inv config (world.step config action).1 ∧
      KeepsPasswords world.server (world.step config action).1.server := by
  cases action with
  | start request client outside =>
      refine ⟨?_, .refl _⟩
      simp only [RegisterWorld.step]
      split
      · exact inv.start ⟨rfl, rfl⟩ ⟨rfl, rfl⟩
      · exact inv.start ⟨rfl, rfl⟩ ⟨rfl, rfl⟩
  | advance index outside =>
      simp only [RegisterWorld.step]
      split
      · exact ⟨inv, .refl _⟩
      next call atIndex =>
        have goes := inv.proceed normalizes atIndex (smooth call atIndex)
        exact ⟨goes.inv, goes.keeps⟩

/-- Calls side by side register as a whole or not at all, if none creates an
account that is there already, none finds its address taken after that, and
none fails later. -/
theorem atomic_of_smooth {start world : RegisterWorld} (idle : start.calls = [])
    (oneToOne : (emailsOf start.server).OneToOne config.grammar)
    {history : List (Entry RegisterWorld RegisterAction Unit)}
    (reached : Reaches (step config) start history world)
    (smooth : Always (fun _ entry =>
      entry.before.Smooth config entry.input) history) :
    world.Atomic config ∧ PasswordsKept config history := by
  have initial : start.Inv config := by
    refine ⟨?_, ?_, oneToOne.distinct, fun normalized owner found =>
      .inl (oneToOne.agrees normalized owner found)⟩
    · simp [idle]
    · simp [idle]
  have kept := reached.invariant
    (fun history world => world.Inv config ∧ PasswordsKept config history)
    ⟨initial, by simp [PasswordsKept]⟩ ?_ smooth
  · exact ⟨kept.1.atomic, kept.2⟩
  · intro history world action earlier smooth
    have went := earlier.1.step normalizes action smooth
    exact ⟨went.1, forall_mem_snoc earlier.2 went.2⟩

end

end RegisterWorld

def registerConfig : RegisterConfig where
  client :=
    { settings := { asciiSettings with grammar := EmailTables.mailGrammar }
      threepid := { mailer := true, playReview := none }
      smtp := some
        { requireEmailForRegistration := true
          requireEmailForTokenRegistration := false }
      allowRegistration := true }
  emergencyMode := false
  forbiddenUsername := fun _ => false
  parseError := fun _ => "invalid"
  strictError := fun _ => none
  newUserDisplaynameSuffix := ""
  suspendOnRegister := false

def registerOutside : RegisterOutside where
  users := withoutLdap
  isFirstRun := false
  randomUsername := "random"
  newToken := "token"
  isExclusiveUserId := fun _ => false
  updatePushRules := fun _ => .ok ()
  empowerFirstUser := fun _ => .ok false

def validatedSession (sessionId : SessionId) (clientSecret : ClientSecret)
    (email : Address) : ValidationSession where
  sessionId := sessionId
  clientSecret := clientSecret
  email := email
  validationState := .validated

def openServer : Homeserver where
  services :=
    { threepid :=
        { sessions :=
            { sessions := fun sessionId =>
                if sessionId = "first" then some
                  (validatedSession "first" "one" "one@example.org")
                else if sessionId = "second" then some
                  (validatedSession "second" "two" "two@example.org")
                else none
              clientSecrets := fun clientSecret =>
                if clientSecret = "one" then some "first"
                else if clientSecret = "two" then some "second"
                else none }
          sendAttempts := fun _ => none }
      emails := EmailTables.noEmails
      accounts := noAccounts }
  displaynames := fun _ => none
  suspended := fun _ => false

def registerRequest (email sid clientSecret username : String) :
    RegisterRequest where
  email := email
  clientSecret := clientSecret
  sid := sid
  password := "password of " ++ email
  username := some username
  deviceId := none
  initialDeviceDisplayName := none
  inhibitLogin := true

def steps (index count : Nat) : List RegisterAction :=
  List.replicate count (.advance index registerOutside)

def twoRequests (first second : String) : List RegisterAction :=
  [.start (registerRequest "one@example.org" "first" "one" first) "client"
      registerOutside,
    .start (registerRequest "two@example.org" "second" "two" second) "client"
      registerOutside]

def openWorld : RegisterWorld where
  server := openServer
  calls := []

def apartActions : List RegisterAction :=
  twoRequests "alice" "bob" ++ steps 0 5 ++ steps 1 8 ++ steps 0 7 ++
    steps 1 4

def rivalActions : List RegisterAction :=
  twoRequests "alice" "alice" ++ steps 0 5 ++ steps 1 5 ++ steps 0 7 ++
    steps 1 7

theorem apartActions_smooth :
    ∀ entry ∈ (run (RegisterWorld.step registerConfig) openWorld
        apartActions).1,
      entry.before.Smooth registerConfig entry.input := by
  decide +kernel

theorem apart_atomic : (run (RegisterWorld.step registerConfig) openWorld
        apartActions).2.Atomic registerConfig ∧
      PasswordsKept registerConfig
        (run (RegisterWorld.step registerConfig) openWorld apartActions).1 := by
  refine RegisterWorld.atomic_of_smooth ?_ rfl ?_ (reaches_run _ _ _)
    (Always.of_forall_mem apartActions_smooth)
  · exact mailGrammar_normalizes
  · exact noEmails_oneToOne

theorem rivals_bothRegistered :
    ¬ (run (RegisterWorld.step registerConfig) openWorld
        rivalActions).2.Atomic registerConfig := by
  intro atomic
  have same := atomic.once 0 1 ⟨"alice", "here"⟩ (by decide +kernel)
    (by decide +kernel)
  cases same

end ArcanaServer.Api
