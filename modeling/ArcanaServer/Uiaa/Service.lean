import ArcanaServer.Library.Settles
import ArcanaServer.Library.Stateful
import ArcanaServer.Threepid.Service

namespace ArcanaServer.Uiaa

open Library Users Threepid

inductive AuthType where
  | password
  | reCaptcha
  | emailIdentity
  | msisdn
  | sso
  | dummy
  | registrationToken
  | terms
  | custom (name : String)
  deriving DecidableEq, Repr

def AuthType.asStr : AuthType → String
  | .password => "m.login.password"
  | .reCaptcha => "m.login.recaptcha"
  | .emailIdentity => "m.login.email.identity"
  | .msisdn => "m.login.msisdn"
  | .sso => "m.login.sso"
  | .dummy => "m.login.dummy"
  | .registrationToken => "m.login.registration_token"
  | .terms => "m.login.terms"
  | .custom name => name

inductive UserIdentifier where
  | userIdOrLocalpart (username : String)
  | email (address : String)
  | other

inductive AuthData where
  | password (session : Option String) (identifier : Option UserIdentifier)
      (password : String)
  | reCaptcha (session : Option String) (response : String)
  | emailIdentity (session : Option String) (sid : SessionId)
      (clientSecret : ClientSecret) (idAccessToken : Option String)
  | registrationToken (session : Option String) (token : String)
  | dummy (session : Option String)
  | terms (session : Option String)
  | fallbackAcknowledgement (session : String)
  | other (session : Option String) (authType : AuthType)

namespace AuthData

def session : AuthData → Option String
  | .password session _ _ => session
  | .reCaptcha session _ => session
  | .emailIdentity session _ _ _ => session
  | .registrationToken session _ => session
  | .dummy session => session
  | .terms session => session
  | .fallbackAcknowledgement session => some session
  | .other session _ => session

def authType : AuthData → Option AuthType
  | .password _ _ _ => some .password
  | .reCaptcha _ _ => some .reCaptcha
  | .emailIdentity _ _ _ _ => some .emailIdentity
  | .registrationToken _ _ => some .registrationToken
  | .dummy _ => some .dummy
  | .terms _ => some .terms
  | .fallbackAcknowledgement _ => none
  | .other _ authType => some authType

end AuthData

structure StandardErrorBody where
  kind : ErrorKind
  message : String
  deriving DecidableEq, Repr

structure AuthFlow where
  stages : List AuthType
  deriving DecidableEq, Repr

structure UiaaInfo where
  flows : List AuthFlow
  completed : List AuthType
  params : String
  session : Option String
  authError : Option StandardErrorBody
  deriving DecidableEq, Repr

structure Identity where
  localpart : Option String
  email : Option Address
  deriving DecidableEq, Repr

structure UiaaSession where
  info : UiaaInfo
  identity : Identity
  deriving DecidableEq, Repr

inductive Failure where
  | refused (body : StandardErrorBody)
  | panic (message : String)
  deriving DecidableEq, Repr

/-- A field that is known already keeps its value. -/
def trySet (known : Option String) (value message : String) :
    Except Failure (Option String) :=
  match known with
  | none => .ok (some value)
  | some old =>
      if old = value then .ok (some old)
      else .error (.refused { kind := .invalidParam, message })

namespace Identity

def default : Identity where
  localpart := none
  email := none

def fromUserId (userId : UserId) : Identity :=
  { default with localpart := some userId.localpart }

def trySetLocalpart (identity : Identity) (localpart : String) :
    Except Failure Identity := do
  let localpart ← trySet identity.localpart localpart "User ID mismatch"
  pure { identity with localpart }

def trySetEmail (identity : Identity) (email : Address) :
    Except Failure Identity := do
  let email ← trySet identity.email email "Email mismatch"
  pure { identity with email }

end Identity

structure World where
  threepid : Threepid.Service
  emails : EmailTables
  accounts : Accounts
  tokens : RegistrationTokens

structure Config where
  settings : Settings
  recaptchaPrivateSiteKey : Option String
  staticTokens : StaticTokens

structure Surroundings where
  users : Outside
  draws : Draws
  verifyCaptcha : String → String → Bool
  firstAccountToken : Option String
  sessionId : String

abbrev Stage := EStateM Failure World

section

variable (config : Config) (surroundings : Surroundings)

def refuse {α : Type} (kind : ErrorKind) (message : String) : Stage α :=
  throw (.refused { kind, message })

def getLocalpartForEmail (email : Address) : Stage (Option Localpart) :=
  onPart World.emails (fun world emails => { world with emails })
    (fun emails =>
      let (result, emails) :=
        emails.getLocalpartForEmail config.settings.grammar email
      (.ok result, emails))

def onThreepid {α : Type} (operation : Threepid.Service →
      Except Threepid.Failure α × Threepid.Service) : Stage α :=
  onPart World.threepid (fun world threepid => { world with threepid })
    (fun threepid =>
      let (result, threepid) := operation threepid
      (result.mapError (fun failure =>
        match failure with
        | .panic message => .panic message
        | .limitExceeded message | .featureDisabled message
        | .mailer message | .rejected message =>
            .refused { kind := .threepidAuthFailed, message }), threepid))

def withLocalpart (identity : Identity) :
    Option Localpart → Except Failure Identity
  | some localpart => identity.trySetLocalpart localpart
  | none => pure identity

def validateToken (sid : SessionId) : Option String → Stage Unit
  | some token => onThreepid (fun threepid =>
      threepid.tryValidateSession surroundings.draws sid token)
  | none => pure ()

def checkEmailIdentity (sid : SessionId) (clientSecret : ClientSecret)
    (idAccessToken : Option String) (identity : Identity) :
    Stage Identity := do
  validateToken surroundings sid idAccessToken
  let email ← onThreepid (fun threepid =>
    threepid.consumeValidSession sid clientSecret)
  let localpart ← getLocalpartForEmail config email
  let identity ← liftExcept (withLocalpart identity localpart)
  liftExcept (identity.trySetEmail email)

def lowercasedIfExists (userId : UserId) : Stage UserId := do
  let grammar := config.settings.grammar
  match grammar.parseWithServerName
      (grammar.toLowercase userId.localpart) with
  | none => throw (.panic "called `Result::unwrap()` on an `Err` value")
  | some lowercasedUserId =>
      let world ← get
      pure (if world.accounts.exists lowercasedUserId then lowercasedUserId
        else userId)

def namedUser (name : String) : Stage UserId :=
  match config.settings.grammar.parseWithServerName name with
  | none => refuse .invalidParam "User ID is malformed"
  | some userId => lowercasedIfExists config userId

/-- The user that a password stage names, and what this says of the
identity. -/
def passwordUser (identity : Identity) :
    Option UserIdentifier → Stage (UserId × Identity)
  | some (.userIdOrLocalpart username) => do
      let userId ← namedUser config username
      pure (userId, identity)
  | some (.email address) =>
      if !config.settings.grammar.validAddress address then
        refuse .invalidParam "Email is malformed"
      else do
        match ← getLocalpartForEmail config address with
        | none => refuse .forbidden "Invalid identifier or password"
        | some localpart =>
            let identity ← liftExcept (identity.trySetEmail address)
            let userId ← namedUser config localpart
            pure (userId, identity)
  | _ => refuse .unrecognized "Identifier type not recognized"

def verifyHash (accounts : Accounts) (userId : UserId) (password : String) :
    Bool :=
  (accounts.passwordHash userId).any
    (fun hash => config.settings.verifyPassword password hash)

def verifyLdap (userId : UserId) (password : String) : Bool :=
  if config.settings.ldapFeature && config.settings.ldap.enable then
    match surroundings.users.searchLdap userId with
    | .ok ((userDn, _) :: _) =>
        (surroundings.users.authLdap userDn password).isOk
    | _ => false
  else false

def checkPasswordStage (identifier : Option UserIdentifier)
    (password : String) (identity : Identity) : Stage Identity := do
  let (userId, identity) ← passwordUser config identity identifier
  let world ← get
  if verifyHash config world.accounts userId password ||
      verifyLdap config surroundings userId password then
    liftExcept (identity.trySetLocalpart userId.localpart)
  else refuse .forbidden "Invalid identifier or password"

def checkCaptcha (response : String) : Stage Unit :=
  match config.recaptchaPrivateSiteKey with
  | none => refuse .forbidden "ReCaptcha is not configured"
  | some privateSiteKey =>
      if surroundings.verifyCaptcha privateSiteKey response then pure ()
      else refuse .forbidden "ReCaptcha verification failed"

def checkRegistrationToken (token : String) : Stage Unit := do
  let world ← get
  match world.tokens.validateToken config.staticTokens
      surroundings.firstAccountToken surroundings.draws.now
      (config.settings.grammar.trim token) with
  | some valid =>
      set { world with tokens := world.tokens.markTokenAsUsed valid }
  | none => refuse .forbidden "Invalid registration token"

def checkStage (auth : AuthData) (identity : Identity) :
    Stage (AuthType × Identity) :=
  match auth with
  | .dummy _ => pure (.dummy, identity)
  | .emailIdentity _ sid clientSecret idAccessToken => do
      let identity ← checkEmailIdentity config surroundings sid clientSecret
        idAccessToken identity
      pure (.emailIdentity, identity)
  | .password _ identifier password => do
      let identity ← checkPasswordStage config surroundings identifier password
        identity
      pure (.password, identity)
  | .reCaptcha _ response => do
      checkCaptcha config surroundings response
      pure (.reCaptcha, identity)
  | .registrationToken _ token => do
      checkRegistrationToken config surroundings token
      pure (.registrationToken, identity)
  | .terms _ => pure (.terms, identity)
  | .fallbackAcknowledgement _ | .other _ _ =>
      refuse .unrecognized "Unsupported stage type"

structure Service where
  sessions : String → Option UiaaSession
  world : World

inductive AuthenticateError where
  | uiaa (info : UiaaInfo)
  | request (kind : ErrorKind) (message : String)
  | panic (message : String)
  deriving DecidableEq, Repr

def newSession (flows : List AuthFlow) (params : String)
    (identity : Option Identity) : UiaaSession where
  info :=
    { flows
      completed := []
      params
      session := some surroundings.sessionId
      authError := none }
  identity := identity.getD Identity.default

section

variable (service : Service)

def createSession (session : UiaaSession) : Service :=
  { service with sessions :=
      Function.update service.sessions surroundings.sessionId (some session) }

def stageNames (stages : List AuthType) : List String :=
  stages.map AuthType.asStr

def UiaaSession.isComplete (session : UiaaSession) : Bool :=
  session.info.flows.any (fun flow => (stageNames flow.stages).all
    (fun stage => (stageNames session.info.completed).contains stage))

/-- The session after the supplied stage has been checked. -/
def checkSession (auth : AuthData) (authType : AuthType)
    (session : UiaaSession) (world : World) :
    Except String UiaaSession × World :=
  if (stageNames session.info.completed).contains authType.asStr then
    (.ok session, world)
  else
    match checkStage config surroundings auth session.identity world with
    | .ok (completedStage, updatedIdentity) world =>
        (.ok { info := { session.info with
                 authError := none
                 completed := session.info.completed ++ [completedStage] }
               identity := updatedIdentity }, world)
    | .error (.refused body) world =>
        (.ok { session with
          info := { session.info with authError := some body } }, world)
    | .error (.panic message) world => (.error message, world)

def continueSession (auth : AuthData) (sessionId : String) :
    Except AuthenticateError Identity × Service :=
  match service.sessions sessionId with
  | none =>
      (.error (.request .invalidParam "Invalid session"), service)
  | some session =>
      match auth.authType with
      | none => (.error (.uiaa session.info), service)
      | some authType =>
          if !session.info.flows.any (fun flow =>
              (stageNames flow.stages).contains authType.asStr) then
            (.error (.request .invalidParam
              "No flows include the supplied stage"), service)
          else
            match checkSession config surroundings auth authType session
                service.world with
            | (.error message, world) =>
                (.error (.panic message), { service with world })
            | (.ok updated, world) =>
                if updated.isComplete then
                  (.ok updated.identity,
                    { sessions :=
                        Function.update service.sessions sessionId none
                      world })
                else
                  (.error (.uiaa updated.info),
                    { sessions := Function.update service.sessions sessionId
                        (some updated)
                      world })

def authenticate (auth : Option AuthData) (flows : List AuthFlow)
    (params : String) (identity : Option Identity) :
    Except AuthenticateError Identity × Service :=
  let session := newSession surroundings flows params identity
  match auth with
  | none =>
      (.error (.uiaa session.info), createSession surroundings service session)
  | some auth =>
      match auth.session with
      | some sessionId =>
          continueSession config surroundings service auth sessionId
      | none =>
          continueSession config surroundings
            (createSession surroundings service session) auth
            surroundings.sessionId

def authenticatePassword (auth : Option AuthData) (identity : Option Identity) :
    Except AuthenticateError Identity × Service :=
  authenticate config surroundings service auth
    [{ stages := [.password] }] "null" identity

end

end

open Library Users Threepid List

def Identity.Extends (before after : Identity) : Prop :=
  ∀ localpart, before.localpart = some localpart →
    after.localpart = some localpart

theorem Identity.Extends.trans {first second third : Identity}
    (left : first.Extends second) (right : second.Extends third) :
    first.Extends third :=
  fun localpart known => right localpart (left localpart known)

theorem trySet_ok {known result : Option String} {value message : String}
    (set : trySet known value message = .ok result) :
    ∀ old, known = some old → result = some old := by
  intro old isKnown
  rw [isKnown] at set
  unfold trySet at set
  simp only at set
  split at set
  · exact (Except.ok.inj set).symm
  · cases set

theorem trySetLocalpart_extends {identity result : Identity}
    {localpart : String}
    (set : identity.trySetLocalpart localpart = .ok result) :
    identity.Extends result := by
  obtain ⟨updated, isSet, isResult⟩ := bind_eq_ok set
  cases isResult
  exact trySet_ok isSet

theorem trySetEmail_extends {identity result : Identity} {email : Address}
    (set : identity.trySetEmail email = .ok result) :
    identity.Extends result := by
  obtain ⟨updated, isSet, isResult⟩ := bind_eq_ok set
  cases isResult
  exact fun localpart known => known

section

variable {config : Config} {surroundings : Surroundings}
  {identity result : Identity} {world after : World}

theorem checkEmailIdentity_extends {sid : SessionId}
    {clientSecret : ClientSecret} {idAccessToken : Option String}
    (passed : checkEmailIdentity config surroundings sid clientSecret
      idAccessToken identity world = .ok result after) :
    identity.Extends result := by
  obtain ⟨_, _, _, consuming⟩ := bind_ok passed
  obtain ⟨email, _, _, finding⟩ := bind_ok consuming
  obtain ⟨localpart, _, _, naming⟩ := bind_ok finding
  obtain ⟨named, _, isNamed, mailing⟩ := bind_ok naming
  have extended : identity.Extends named := by
    have lifted := (liftExcept_ok isNamed).1
    cases localpart with
    | none =>
        cases lifted
        exact fun localpart known => known
    | some localpart => exact trySetLocalpart_extends lifted
  exact extended.trans (trySetEmail_extends (liftExcept_ok mailing).1)

theorem passwordUser_extends {identifier : Option UserIdentifier}
    {userId : UserId} (named : passwordUser config identity identifier world =
      .ok (userId, result) after) : identity.Extends result := by
  unfold passwordUser at named
  split at named
  · obtain ⟨_, _, _, answered⟩ := bind_ok named
    cases answered
    exact fun localpart known => known
  · split at named
    · cases named
    · obtain ⟨found, _, _, naming⟩ := bind_ok named
      cases found with
      | none => cases naming
      | some localpart =>
          obtain ⟨mailed, _, isMailed, parsing⟩ := bind_ok naming
          obtain ⟨_, _, _, answered⟩ := bind_ok parsing
          cases answered
          exact trySetEmail_extends (liftExcept_ok isMailed).1
  · cases named

theorem checkPasswordStage_extends {identifier : Option UserIdentifier}
    {password : String}
    (passed : checkPasswordStage config surroundings identifier password
      identity world = .ok result after) : identity.Extends result := by
  obtain ⟨named, _, isNamed, verifying⟩ := bind_ok passed
  obtain ⟨read, _, _, verified⟩ := bind_ok verifying
  have extended := passwordUser_extends isNamed
  split at verified
  · exact extended.trans (trySetLocalpart_extends (liftExcept_ok verified).1)
  · cases verified

theorem checkStage_extends {auth : AuthData} {stage : AuthType}
    (passed : checkStage config surroundings auth identity world =
      .ok (stage, result) after) : identity.Extends result := by
  have same : identity.Extends identity := fun localpart known => known
  cases auth with
  | password session identifier password =>
      obtain ⟨updated, _, isUpdated, answered⟩ := bind_ok passed
      cases answered
      exact checkPasswordStage_extends isUpdated
  | reCaptcha session response =>
      obtain ⟨_, _, _, answered⟩ := bind_ok passed
      cases answered
      exact same
  | emailIdentity session sid clientSecret idAccessToken =>
      obtain ⟨updated, _, isUpdated, answered⟩ := bind_ok passed
      cases answered
      exact checkEmailIdentity_extends isUpdated
  | registrationToken session token =>
      obtain ⟨_, _, _, answered⟩ := bind_ok passed
      cases answered
      exact same
  | dummy session | terms session =>
      cases passed
      exact same
  | fallbackAcknowledgement session | other session authType => cases passed

end

/-- A later state of a session: its flows are the same, and what it knew of the
localpart it still knows. -/
structure UiaaSession.Continues (before after : UiaaSession) : Prop where
  flows : after.info.flows = before.info.flows
  identity : before.identity.Extends after.identity

theorem UiaaSession.Continues.refl (session : UiaaSession) :
    session.Continues session :=
  ⟨rfl, fun _ known => known⟩

section

variable {config : Config} {surroundings : Surroundings}

theorem checkSession_continues {auth : AuthData} {authType : AuthType}
    {session updated : UiaaSession} {world after : World}
    (checked : checkSession config surroundings auth authType session world =
      (.ok updated, after)) : session.Continues updated := by
  unfold checkSession at checked
  split at checked
  · cases checked
    exact .refl session
  · split at checked
    · rename_i passed
      cases checked
      exact ⟨rfl, checkStage_extends passed⟩
    · cases checked
      exact ⟨rfl, fun localpart known => known⟩
    · cases checked

theorem continueSession_stored {service : Service} {auth : AuthData}
    {sessionId key : String} {stored : UiaaSession}
    (found : (continueSession config surroundings service auth
      sessionId).2.sessions key = some stored) :
    ∃ session, service.sessions key = some session ∧
      session.Continues stored := by
  have kept : service.sessions key = some stored →
      ∃ session, service.sessions key = some session ∧
        session.Continues stored :=
    fun old => ⟨stored, old, .refl stored⟩
  unfold continueSession at found
  split at found
  · exact kept found
  · rename_i session isSession
    split at found
    · exact kept found
    · split at found
      · exact kept found
      · split at found
        · exact kept found
        · rename_i updated world checked
          split at found
          · exact kept (update_none_eq_some found)
          · rcases update_eq_some found with old | new
            · exact kept old
            · rw [new.1, new.2]
              exact ⟨session, isSession, checkSession_continues checked⟩

theorem createSession_stored {service : Service} {key : String}
    {session stored : UiaaSession}
    (found : (createSession surroundings service session).sessions key =
      some stored) :
    key ≠ surroundings.sessionId ∧ service.sessions key = some stored ∨
      key = surroundings.sessionId ∧ stored = session := by
  have row : Function.update service.sessions surroundings.sessionId
      (some session) key = some stored := found
  rcases Decidable.em (key = surroundings.sessionId) with same | different
  · rw [same, Function.update_self] at row
    exact .inr ⟨same, (Option.some.inj row).symm⟩
  · rw [Function.update_of_ne different] at row
    exact .inl ⟨different, row⟩

theorem continueSession_ok {service : Service} {auth : AuthData}
    {sessionId : String} {identity : Identity}
    (passed : (continueSession config surroundings service auth
      sessionId).1 = .ok identity) :
    ∃ session authType updated world,
      service.sessions sessionId = some session ∧
        auth.authType = some authType ∧
        checkSession config surroundings auth authType session
          service.world = (.ok updated, world) ∧
        updated.isComplete = true ∧ updated.identity = identity := by
  unfold continueSession at passed
  split at passed
  · cases passed
  · rename_i session isSession
    split at passed
    · cases passed
    · rename_i authType isAuthType
      split at passed
      · cases passed
      · split at passed
        · cases passed
        · rename_i updated world checked
          split at passed
          · rename_i complete
            exact ⟨session, authType, updated, world, isSession, isAuthType,
              checked, complete, Except.ok.inj passed⟩
          · cases passed

end

structure Attempt where
  auth : Option AuthData
  flows : List AuthFlow
  params : String
  identity : Option Identity

def Attempt.localpart (attempt : Attempt) : Option String :=
  attempt.identity.bind Identity.localpart

def Attempt.named (attempt : Attempt) : Option String :=
  attempt.auth.bind AuthData.session

inductive Request where
  | authenticate (attempt : Attempt)
  | elsewhere (world : World)

structure Call where
  surroundings : Surroundings
  request : Request

inductive Response where
  | authenticated (result : Except AuthenticateError Identity)
  | done

section

variable (config : Config)

def step (service : Service) (call : Call) : Service × Response :=
  match call.request with
  | .authenticate attempt =>
      let (result, service) := authenticate config call.surroundings service
        attempt.auth attempt.flows attempt.params attempt.identity
      (service, .authenticated result)
  | .elsewhere world => ({ service with world }, .done)

abbrev History := List (Entry Service Call Response)

structure Creates (entry : Entry Service Call Response) (sessionId : String)
    (attempt : Attempt) : Prop where
  asks : entry.input.request = .authenticate attempt
  unnamed : attempt.named = none
  drawn : entry.input.surroundings.sessionId = sessionId

def CreatedBy (history : History) (sessionId : String) (attempt : Attempt) :
    Prop :=
  ∃ before entry after, history = before ++ entry :: after ∧
    Creates entry sessionId attempt ∧
    ∀ later ∈ after, ∀ other, ¬ Creates later sessionId other

/-- Every flow of the one call contains a flow of the other. -/
def Covers (flows own : List AuthFlow) : Prop := ∀ flow ∈ flows, ∃ wanted ∈ own,
    ∀ stage ∈ stageNames wanted.stages, stage ∈ stageNames flow.stages

def StepMatches (history : History) (entry : Entry Service Call Response) :
    Prop :=
  ∀ attempt sessionId creating, entry.input.request = .authenticate attempt →
    attempt.named = some sessionId →
    CreatedBy history sessionId creating →
    Covers creating.flows attempt.flows ∧
      ∀ localpart, attempt.localpart = some localpart →
        creating.localpart = some localpart

def sessionUsed (surroundings : Surroundings) (service : Service)
    (attempt : Attempt) : Option UiaaSession :=
  match attempt.named with
  | some sessionId => service.sessions sessionId
  | none => some (newSession surroundings attempt.flows attempt.params
      attempt.identity)

/-- The stages completed in the session that the call uses contain a flow of
the call, and the identity has the localpart of the caller. -/
def Authentic (entry : Entry Service Call Response) (attempt : Attempt)
    (identity : Identity) : Prop :=
  ∃ session auth authType updated world,
    sessionUsed entry.input.surroundings entry.before attempt = some session ∧
      attempt.auth = some auth ∧ auth.authType = some authType ∧
      checkSession config entry.input.surroundings auth authType session
        entry.before.world = (.ok updated, world) ∧
      (∃ flow ∈ attempt.flows, ∀ stage ∈ stageNames flow.stages,
        stage ∈ stageNames updated.info.completed) ∧
      updated.identity = identity ∧
      ∀ localpart, attempt.localpart = some localpart →
        identity.localpart = some localpart

/-- What a session has from the call that has created it. -/
structure Stems (attempt : Attempt) (session : UiaaSession) : Prop where
  flows : session.info.flows = attempt.flows
  localpart : ∀ localpart, attempt.localpart = some localpart →
    session.identity.localpart = some localpart

def UiaaInv (history : History) (service : Service) : Prop :=
  ∀ sessionId session, service.sessions sessionId = some session →
    ∃ attempt, CreatedBy history sessionId attempt ∧ Stems attempt session

variable {config}

variable {attempt : Attempt}

theorem CreatedBy.snoc {history : History} {sessionId : String}
    {entry : Entry Service Call Response}
    (created : CreatedBy history sessionId attempt)
    (other : ∀ attempt, ¬ Creates entry sessionId attempt) :
    CreatedBy (history ++ [entry]) sessionId attempt := by
  obtain ⟨before, creating, after, split, creates, last⟩ := created
  refine ⟨before, creating, after ++ [entry], ?_, creates, ?_⟩
  · rw [split, append_assoc, cons_append]
  · exact forall_mem_snoc last other

theorem Stems.continues {session later : UiaaSession}
    (stems : Stems attempt session) (continues : session.Continues later) :
    Stems attempt later :=
  ⟨continues.flows.trans stems.flows, fun localpart known =>
    continues.identity localpart (stems.localpart localpart known)⟩

theorem stems_newSession (surroundings : Surroundings) (attempt : Attempt) :
    Stems attempt (newSession surroundings attempt.flows attempt.params
      attempt.identity) := by
  refine ⟨rfl, ?_⟩
  intro localpart known
  cases isIdentity : attempt.identity with
  | none =>
      rw [Attempt.localpart, isIdentity] at known
      cases known
  | some identity =>
      rw [Attempt.localpart, isIdentity] at known
      exact known

theorem authenticate_stored {surroundings : Surroundings} {service : Service}
    {key : String} {stored : UiaaSession}
    (found : (authenticate config surroundings service attempt.auth
      attempt.flows attempt.params attempt.identity).2.sessions key =
        some stored) :
    (∃ session, service.sessions key = some session ∧ session.Continues stored ∧
        ¬ (attempt.named = none ∧ surroundings.sessionId = key)) ∨
      attempt.named = none ∧ surroundings.sessionId = key ∧
        Stems attempt stored := by
  have created : ∀ {later : UiaaSession}, attempt.named = none →
      (createSession surroundings service (newSession surroundings
        attempt.flows attempt.params attempt.identity)).sessions key =
          some later → later.Continues stored →
      (∃ session, service.sessions key = some session ∧
          session.Continues stored ∧
          ¬ (attempt.named = none ∧ surroundings.sessionId = key)) ∨
        attempt.named = none ∧ surroundings.sessionId = key ∧
          Stems attempt stored := by
    intro later unnamed isLater continues
    rcases createSession_stored isLater with old | new
    · exact .inl ⟨later, old.2, continues, fun creates => old.1 creates.2.symm⟩
    · have stems := stems_newSession surroundings attempt
      rw [← new.2] at stems
      exact .inr ⟨unnamed, new.1.symm, stems.continues continues⟩
  cases isAuth : attempt.auth with
  | none =>
      rw [isAuth] at found
      exact created (by rw [Attempt.named, isAuth]; rfl) found (.refl stored)
  | some auth =>
      rw [isAuth] at found
      have isNamed : attempt.named = auth.session := by
        rw [Attempt.named, isAuth]
        rfl
      cases isSession : auth.session with
      | none =>
          simp only [authenticate, isSession] at found
          obtain ⟨later, isLater, continues⟩ := continueSession_stored found
          exact created (isNamed.trans isSession) isLater continues
      | some sessionId =>
          simp only [authenticate, isSession] at found
          obtain ⟨session, isStored, continues⟩ := continueSession_stored found
          refine .inl ⟨session, isStored, continues, ?_⟩
          intro creates
          rw [isNamed, isSession] at creates
          cases creates.1

theorem UiaaInv.step (history : History) (service : Service) (call : Call)
    (inv : UiaaInv history service) :
    UiaaInv (history ++ [entryOf (Uiaa.step config) service call])
      (Uiaa.step config service call).1 := by
  obtain ⟨surroundings, request⟩ := call
  intro sessionId stored found
  cases request with
  | elsewhere world =>
      obtain ⟨attempt, created, stems⟩ := inv sessionId stored found
      refine ⟨attempt, created.snoc ?_, stems⟩
      intro other creates
      cases creates.asks
  | authenticate attempt =>
      rcases authenticate_stored found with old | new
      · obtain ⟨session, isStored, continues, notCreates⟩ := old
        obtain ⟨creating, created, stems⟩ := inv sessionId session isStored
        refine ⟨creating, created.snoc ?_, stems.continues continues⟩
        intro other creates
        cases creates.asks
        exact notCreates ⟨creates.unnamed, creates.drawn⟩
      · obtain ⟨unnamed, drawn, stems⟩ := new
        refine ⟨attempt, ⟨history, _, [], rfl, ⟨rfl, unnamed, drawn⟩, ?_⟩,
          stems⟩
        intro later impossible
        cases impossible

theorem reaches_uiaaInv {world : World} {history : History} {service : Service}
    (reaches : Reaches (step config) { sessions := fun _ => none, world }
      history service) : UiaaInv history service := by
  have always : Always (fun _ _ => True) history := fun _ _ _ _ => trivial
  refine reaches.invariant UiaaInv ?_ ?_ always
  · intro sessionId session found
    cases found
  · intro history service call inv _
    exact UiaaInv.step history service call inv

theorem isComplete_iff {session : UiaaSession} :
    session.isComplete = true ↔ ∃ flow ∈ session.info.flows,
      ∀ stage ∈ stageNames flow.stages,
        stage ∈ stageNames session.info.completed := by
  simp only [UiaaSession.isComplete, any_eq_true, all_eq_true, contains_iff_mem]

theorem authenticate_ok {surroundings : Surroundings} {service : Service}
    {identity : Identity}
    (passed : (authenticate config surroundings service attempt.auth
      attempt.flows attempt.params attempt.identity).1 = .ok identity) :
    ∃ session auth authType updated world,
      sessionUsed surroundings service attempt = some session ∧
        attempt.auth = some auth ∧ auth.authType = some authType ∧
        checkSession config surroundings auth authType session
          service.world = (.ok updated, world) ∧
        updated.isComplete = true ∧ updated.identity = identity := by
  cases isAuth : attempt.auth with
  | none =>
      rw [isAuth] at passed
      cases passed
  | some auth =>
      rw [isAuth] at passed
      have isNamed : attempt.named = auth.session := by
        rw [Attempt.named, isAuth]
        rfl
      cases isSession : auth.session with
      | none =>
          simp only [authenticate, isSession] at passed
          obtain ⟨session, authType, updated, world, isStored, rest⟩ :=
            continueSession_ok passed
          refine ⟨session, auth, authType, updated, world, ?_, rfl, rest⟩
          rw [sessionUsed, isNamed, isSession]
          rcases createSession_stored isStored with old | new
          · exact absurd rfl old.1
          · rw [new.2]
      | some sessionId =>
          simp only [authenticate, isSession] at passed
          obtain ⟨session, authType, updated, world, isStored, rest⟩ :=
            continueSession_ok passed
          refine ⟨session, auth, authType, updated, world, ?_, rfl, rest⟩
          rw [sessionUsed, isNamed, isSession]
          exact isStored

variable (config)

/-- Whenever a call of a run succeeds, the session it used has completed a flow
of that call, for the user of that call. -/
theorem authenticated_authentic {world : World}
    {history earlier later : History} {service : Service}
    {entry : Entry Service Call Response} {attempt : Attempt}
    {identity : Identity}
    (reaches : Reaches (step config) { sessions := fun _ => none, world }
      history service)
    (always : Always StepMatches history)
    (split : history = earlier ++ entry :: later)
    (asks : entry.input.request = .authenticate attempt)
    (answers : entry.output = .authenticated (.ok identity)) :
    Authentic config entry attempt identity := by
  obtain ⟨reached, isEntry⟩ := reaches.entry split
  have inv := reaches_uiaaInv reached
  have passed : (authenticate config entry.input.surroundings entry.before
      attempt.auth attempt.flows attempt.params attempt.identity).1 =
        .ok identity := by
    rw [isEntry] at answers
    simpa only [entryOf, step, asks, Response.authenticated.injEq] using answers
  obtain ⟨session, auth, authType, updated, after, used, isAuth, isAuthType,
    checked, complete, isIdentity⟩ := authenticate_ok passed
  have continues := checkSession_continues checked
  obtain ⟨flow, isFlow, completed⟩ := isComplete_iff.mp complete
  rw [continues.flows] at isFlow
  have covered : Covers session.info.flows attempt.flows ∧
      ∀ localpart, attempt.localpart = some localpart →
        session.identity.localpart = some localpart := by
    cases isNamed : attempt.named with
    | none =>
        have stems := stems_newSession entry.input.surroundings attempt
        rw [sessionUsed, isNamed] at used
        rw [Option.some.inj used] at stems
        refine ⟨?_, stems.localpart⟩
        intro flow member
        rw [stems.flows] at member
        exact ⟨flow, member, fun stage listed => listed⟩
    | some sessionId =>
        rw [sessionUsed, isNamed] at used
        obtain ⟨creating, created, stems⟩ := inv sessionId session used
        obtain ⟨covers, sameUser⟩ := always earlier entry later split attempt
          sessionId creating asks isNamed created
        rw [stems.flows]
        exact ⟨covers, fun localpart known =>
          stems.localpart localpart (sameUser localpart known)⟩
  obtain ⟨wanted, isWanted, contained⟩ := covered.1 flow isFlow
  refine ⟨session, auth, authType, updated, after, used, isAuth, isAuthType,
    checked, ⟨wanted, isWanted, ?_⟩, isIdentity, ?_⟩
  · intro stage listed
    exact completed stage (contained stage listed)
  · intro localpart known
    rw [← isIdentity]
    exact continues.identity localpart (covered.2 localpart known)

end

def plainConfig : Config where
  settings := asciiSettings
  recaptchaPrivateSiteKey := none
  staticTokens := { configFileToken := none, fromFile := [] }

def mallory : UserId where
  localpart := "mallory"
  serverName := "server"

def malloryWorld : World where
  threepid := .empty
  emails := { localpartEmail := ∅, emailLocalpart := fun _ => none }
  accounts := oneAccount mallory "evil"
  tokens := fun _ => none

def plainSurroundings : Surroundings where
  users := withoutLdap
  draws :=
    { now := 0, random := 0, sessionId := "", limited := false
      mailFails := none }
  verifyCaptcha := fun _ _ => false
  firstAccountToken := none
  sessionId := "uiaa"

def passwordAttempt (auth : Option AuthData) (localpart : String) :
    Attempt where
  auth := auth
  flows := [{ stages := [.password] }]
  params := "null"
  identity := some { localpart := some localpart, email := none }

def malloryAuth : AuthData :=
  .password (some "uiaa") (some (.userIdOrLocalpart "mallory")) "evil"

def attemptCall (attempt : Attempt) : Call where
  surroundings := plainSurroundings
  request := .authenticate attempt

/-- A session that was created for one user answers a call for another. -/
theorem mallory_not_authentic :
    let start : Service := { sessions := fun _ => none, world := malloryWorld }
    let opened := run (step plainConfig) start
      [attemptCall (passwordAttempt none "mallory")]
    let call := attemptCall (passwordAttempt (some malloryAuth) "alice")
    (step plainConfig opened.2 call).2 =
        .authenticated (.ok (Identity.fromUserId mallory)) ∧
      ¬ Authentic plainConfig (entryOf (step plainConfig) opened.2 call)
        (passwordAttempt (some malloryAuth) "alice")
        (Identity.fromUserId mallory) := by
  constructor
  · rfl
  · intro authentic
    obtain ⟨_, _, _, _, _, _, _, _, _, _, _, sameUser⟩ := authentic
    exact absurd (sameUser "alice" rfl) (by decide)

def malloryCalls : List Call :=
  [attemptCall (passwordAttempt none "mallory"),
    attemptCall (passwordAttempt (some malloryAuth) "mallory")]

theorem malloryCalls_match : Always StepMatches (run (step plainConfig)
      { sessions := fun _ => none, world := malloryWorld }
      malloryCalls).1 := by
  refine (Always.nil.snoc ?_).snoc ?_
  · intro attempt sessionId creating asks named
    cases asks
    cases named
  · intro attempt sessionId creating asks named created
    cases asks
    obtain ⟨before, entry, after, split, creates, _⟩ := created
    have member : entry ∈ [] ++ [entryOf (step plainConfig)
        { sessions := fun _ => none, world := malloryWorld }
        (attemptCall (passwordAttempt none "mallory"))] := by
      rw [split]
      exact mem_append_right _ mem_cons_self
    have asked := creates.asks
    rw [mem_singleton.mp member] at asked
    cases asked
    exact ⟨fun flow isFlow => ⟨flow, isFlow, fun stage listed => listed⟩,
      fun localpart known => known⟩

theorem malloryCalls_authentic :
    let start : Service := { sessions := fun _ => none, world := malloryWorld }
    let opened := run (step plainConfig) start (malloryCalls.take 1)
    Authentic plainConfig (entryOf (step plainConfig) opened.2
        (attemptCall (passwordAttempt (some malloryAuth) "mallory")))
      (passwordAttempt (some malloryAuth) "mallory")
      (Identity.fromUserId mallory) := by
  intro start opened
  have split : (run (step plainConfig) start malloryCalls).1 =
      opened.1 ++ entryOf (step plainConfig) opened.2
        (attemptCall (passwordAttempt (some malloryAuth) "mallory")) :: [] :=
    rfl
  exact authenticated_authentic plainConfig
    (reaches_run (step plainConfig) start malloryCalls) malloryCalls_match
    split rfl rfl

end ArcanaServer.Uiaa
