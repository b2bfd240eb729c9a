import ArcanaServer.Library.Stateful
import ArcanaServer.Threepid.Service

namespace ArcanaServer.Api

open Library Users Threepid

/-! The routes of the clients work on the state of three services. -/

structure ClientConfig where
  settings : Settings
  threepid : Threepid.Config
  smtp : Option Smtp
  allowRegistration : Bool

structure Services where
  threepid : Threepid.Service
  emails : EmailTables
  accounts : Accounts

structure Surroundings where
  users : Outside
  draws : Draws
  isFirstRun : Bool

abbrev Route := EStateM Error Services

def ofFailure : Failure → Error
  | .limitExceeded message => .request .limitExceeded message
  | .featureDisabled message => .featureDisabled message
  | .mailer message => .mailer message
  | .rejected message => .request .threepidAuthFailed message
  | .panic message => .panic message

def onThreepid {α : Type}
    (operation : Threepid.Service → Except Failure α × Threepid.Service) :
    Route α :=
  onPart Services.threepid
    (fun services threepid => { services with threepid })
    (fun threepid =>
      let (result, threepid) := operation threepid
      (result.mapError ofFailure, threepid))

def onAccounts {α : Type}
    (operation : Accounts → Except Error α × Accounts) : Route α :=
  onPart Services.accounts
    (fun services accounts => { services with accounts }) operation

def onEmails {α : Type} (operation : EmailTables → α × EmailTables) :
    Route α :=
  onPart Services.emails (fun services emails => { services with emails })
    (fun emails =>
      let (result, emails) := operation emails
      (.ok result, emails))

section

variable (config : ClientConfig) (surroundings : Surroundings)

def getLocalpartForEmail (email : String) : Route (Option Localpart) :=
  onEmails (fun emails =>
    emails.getLocalpartForEmail config.settings.grammar email)

def parseUserId (identifier : String) : Option UserId :=
  config.settings.grammar.parseWithServerName identifier

def parseClientSecret (clientSecret : String) : Route ClientSecret :=
  if config.settings.grammar.validClientSecret clientSecret then
    pure clientSecret
  else throw (.request .invalidParam "Invalid client_secret")

def parseSessionId (sid : String) : Route SessionId :=
  if config.settings.grammar.validSessionId sid then pure sid
  else throw (.request .invalidParam "Invalid sid")

def sendValidationCodeEmail (recipient : Address)
    (clientSecret : ClientSecret) (sendAttempt : Nat) : Route SessionId :=
  onThreepid (fun threepid =>
    let (sent, threepid) := threepid.sendValidationCodeEmail config.threepid
      surroundings.draws recipient clientSecret sendAttempt
    (sent.result, threepid))

def tryValidateSession (sessionId : SessionId) (token : String) :
    Route Unit :=
  onThreepid (fun threepid =>
    threepid.tryValidateSession surroundings.draws sessionId token)

def consumeValidSession (sessionId : SessionId)
    (clientSecret : ClientSecret) : Route Address :=
  onThreepid (fun threepid =>
    threepid.consumeValidSession sessionId clientSecret)

variable (userId : UserId)

def emailForLogin : Route Address := do
  let services ← get
  match services.emails.getEmailForLocalpart config.settings.grammar
      userId.localpart with
  | some email => pure email
  | none =>
      throw (.request .forbidden
        "This account does not have an email address.")

variable (accounts : Accounts) (userId lowercasedUserId : UserId)

def storedHash : Except Error (String × UserId) :=
  match accounts.passwordHash userId with
  | some hash => pure (hash, userId)
  | none =>
      match accounts.passwordHash lowercasedUserId with
      | some hash => pure (hash, lowercasedUserId)
      | none => throw (.request .forbidden "Invalid identifier or password.")

def passwordLogin (password : String) : Except Error UserId :=
  if (accounts.origin userId).any (fun origin => origin != "password") then
    throw (.request .forbidden "Account does not permit password login.")
  else do
    let (hash, userId) ← storedHash accounts userId lowercasedUserId
    if hash.isEmpty then
      throw (.request .userDeactivated "The user has been deactivated")
    else if config.settings.verifyPassword password hash then pure userId
    else throw (.request .forbidden "Invalid identifier or password.")

def findLdapUser (userId lowercasedUserId : UserId) :
    Except Error (Option (String × Option Bool)) :=
  let placeholder := "\x7busername\x7d"
  let search := do
    let dns ← surroundings.users.searchLdap userId
    if dns.length ≥ 2 then
      throw (.ldap "LDAP search returned two or more results")
    pure dns.head?
  match config.settings.ldap.bindDn with
  | some bindDn =>
      if bindDn.replace placeholder "" ≠ bindDn then
        pure (some (bindDn.replace placeholder lowercasedUserId.localpart,
          none))
      else search
  | none => search

def syncAdmin : Option Bool → Except Error Unit
  | none => pure ()
  | some isLdapAdmin =>
      let isAdmin := surroundings.users.userIsAdmin userId
      if isLdapAdmin && !isAdmin then surroundings.users.makeUserAdmin userId
      else if !isLdapAdmin && isAdmin then
        surroundings.users.revokeAdmin userId
      else pure ()

def ldapLogin (userId lowercasedUserId : UserId) (password : String) :
    Route UserId := do
  match ← liftExcept (findLdapUser config surroundings userId
      lowercasedUserId) with
  | none =>
      let services ← get
      liftExcept (passwordLogin config services.accounts userId
        lowercasedUserId password)
  | some (userDn, isLdapAdmin) =>
      liftExcept (surroundings.users.authLdap userDn password)
      onAccounts (fun accounts =>
        if accounts.exists lowercasedUserId then (.ok (), accounts)
        else accounts.create config.settings surroundings.users
          lowercasedUserId (some "*") (some "ldap"))
      liftExcept (syncAdmin surroundings lowercasedUserId isLdapAdmin)
      pure lowercasedUserId

def resolveLoginUserId : Route UserId := do
  match parseUserId config
      (config.settings.grammar.toLowercase userId.localpart) with
  | none => throw (.panic "called `Result::unwrap()` on an `Err` value")
  | some lowercasedUserId =>
      let services ← get
      pure (if services.accounts.exists lowercasedUserId then lowercasedUserId
        else userId)

def loginLocalpart (login : String) : Route Localpart := do
  if config.settings.grammar.validAddress login then
    match ← getLocalpartForEmail config login with
    | some localpart => pure localpart
    | none => throw (.request .forbidden "Invalid identifier or password")
  else
    match parseUserId config login with
    | some userId => pure userId.localpart
    | none =>
        throw (.request .invalidParam "Identifier type not recognized")

def checkMayLogIn : Route Unit := do
  let services ← get
  let locked ← liftExcept (services.accounts.isLocked userId)
  refuseIf locked (.request .userLocked "This account has been locked.")
  refuseIf (services.accounts.isLoginDisabled userId)
    (.request .forbidden "This account is not permitted to log in.")

def checkPassword (password : String) : Route UserId :=
  let localLogin : Route UserId := do
    let services ← get
    liftExcept (passwordLogin config services.accounts userId userId password)
  if config.settings.ldapFeature && config.settings.ldap.enable then
    tryCatch (ldapLogin config surroundings userId userId password)
      (fun error =>
        if config.settings.ldap.ldapOnly then throw error else localLogin)
  else localLogin

def handleLogin (login password : String) : Route UserId := do
  let localpart ← loginLocalpart config login
  match parseUserId config localpart with
  | none => throw (.request .invalidUsername "User ID is malformed")
  | some userId =>
      let userId ← resolveLoginUserId config userId
      refuseIf (!config.settings.grammar.userIsLocal userId)
        (.request .unknown "User ID does not belong to this homeserver")
      checkMayLogIn userId
      checkPassword config surroundings userId password

structure LoginResponse where
  userId : UserId
  accessToken : String
  deviceId : Option DeviceId
  homeServer : Option String
  refreshToken : Option String
  deriving DecidableEq, Repr

structure LoginRequest where
  clientSecret : String
  login : Option String
  password : Option String
  sendAttempt : Option Nat
  sid : Option String
  token : Option String
  deviceId : Option DeviceId
  initialDeviceDisplayName : Option String

inductive LoginFlowResponse where
  | request (sid : SessionId) (email : Address)
  | final (response : LoginResponse)
  deriving DecidableEq, Repr

def completeLogin (client : String) (userId : UserId)
    (deviceId : Option DeviceId) (initialDeviceDisplayName : Option String) :
    Route LoginResponse := do
  let deviceExists (accounts : Accounts) : Bool := deviceId.any
    (fun provided => (accounts.deviceMetadata (userId, provided)).isSome)
  let deviceId := deviceId.getD surroundings.users.randomDeviceId
  let token := surroundings.users.uniqueToken
  onAccounts (fun accounts =>
    if deviceExists accounts then
      accounts.setToken config.settings userId deviceId token
    else
      accounts.createDevice config.settings userId deviceId token
        initialDeviceDisplayName (some client))
  pure { userId
         accessToken := token
         deviceId := some deviceId
         homeServer := some config.settings.grammar.serverName
         refreshToken := none }

variable (client : String) (body : LoginRequest)

def finishLoginAfterEmailCode (sid : SessionId) (token : String)
    (clientSecret : ClientSecret) : Route LoginResponse := do
  let sid ← parseSessionId config sid
  let clientSecret ← parseClientSecret config clientSecret
  tryValidateSession surroundings sid token
  let email ← consumeValidSession sid clientSecret
  match ← getLocalpartForEmail config email with
  | none =>
      throw (.request .forbidden
        "This account is not associated with a user.")
  | some localpart =>
      match parseUserId config localpart with
      | none => throw (.request .invalidUsername "User ID is malformed")
      | some userId =>
          checkMayLogIn userId
          completeLogin config surroundings client userId body.deviceId
            body.initialDeviceDisplayName

def require {α : Type} (message : String) : Option α → Route α
  | some value => pure value
  | none => throw (.request .invalidParam message)

def loginPassword : Route (UserId × Nat) := do
  refuseIf (body.sid.isSome || body.token.isSome) (.request .invalidParam
    "Both sid and token are required to finish login")
  refuseIf (!(emailRequirement config.smtp).mayChange)
    (.request .forbidden "Email verification is unavailable.")
  let login ← require "Login is required" body.login
  let password ← require "Password is required" body.password
  let sendAttempt ← require "send_attempt is required" body.sendAttempt
  let userId ← handleLogin config surroundings login password
  pure (userId, sendAttempt)

def startLogin : Route LoginFlowResponse := do
  let (userId, sendAttempt) ← loginPassword config surroundings body
  let email ← emailForLogin config userId
  let clientSecret ← parseClientSecret config body.clientSecret
  let session ← sendValidationCodeEmail config surroundings email clientSecret
    sendAttempt
  pure (.request session email)

def submitLogin (sid token : String) : Route LoginFlowResponse := do
  let sid ← parseSessionId config sid
  let clientSecret ← parseClientSecret config body.clientSecret
  let response ← finishLoginAfterEmailCode config surroundings client body sid
    token clientSecret
  pure (.final response)

def loginRoute : Route LoginFlowResponse :=
  match body.sid, body.token with
  | some sid, some token =>
      submitLogin config surroundings client body sid token
  | _, _ => startLogin config surroundings body

end

/-! The other routes that send and accept validation tokens: registration,
password reset and change of address. -/

section

variable (config : ClientConfig) (surroundings : Surroundings)

def requireUnused (email : Address) : Route Unit := do
  match ← getLocalpartForEmail config email with
  | some _ =>
      throw (.request .threepidInUse "This email address is already in use.")
  | none => pure ()

structure EmailRequestToken where
  clientSecret : String
  email : String
  sendAttempt : Nat

structure EmailSubmitToken where
  clientSecret : String
  sid : String
  token : String

section

variable (body : EmailRequestToken)

def registrationAddress : Route (Address × ClientSecret) := do
  refuseIf (!config.allowRegistration && !surroundings.isFirstRun)
    (.request .forbidden
      "This server is not accepting registrations at this time.")
  refuseIf (!(emailRequirement config.smtp).mayChange)
    (.request .forbidden "Email verification is unavailable.")
  let clientSecret ← parseClientSecret config body.clientSecret
  refuseIf (!config.settings.grammar.validAddress body.email)
    (.request .invalidParam "Invalid email address.")
  requireUnused config body.email
  pure (body.email, clientSecret)

def requestRegistrationTokenViaEmailRoute : Route SessionId := do
  let (email, clientSecret) ← registrationAddress config surroundings body
  sendValidationCodeEmail config surroundings email clientSecret
    body.sendAttempt

def submitRegistrationTokenViaEmailRoute (body : EmailSubmitToken) :
    Route String := do
  let sid ← parseSessionId config body.sid
  tryValidateSession surroundings sid body.token
  pure body.sid

/-- A password reset names an address, a localpart or a user ID. -/
def emailForPasswordReset (identifier : String) : Route Address := do
  let grammar := config.settings.grammar
  let identifier := grammar.trim identifier
  refuseIf identifier.isEmpty
    (.request .invalidParam "Email or login is required")
  if grammar.validAddress identifier then
    match ← getLocalpartForEmail config identifier with
    | none =>
        throw (.request .threepidNotFound
          "No account is associated with this email address")
    | some _ => pure identifier
  else
    match parseUserId config identifier with
    | none =>
        throw (.request .invalidParam "Email or login not recognized")
    | some userId =>
        let services ← get
        let emailOf := services.emails.getEmailForLocalpart grammar
        let lowercased := grammar.toLowercase userId.localpart
        match emailOf lowercased with
        | some email => pure email
        | none =>
            match if lowercased ≠ userId.localpart then
                emailOf userId.localpart else none with
            | some email => pure email
            | none =>
                throw (.request .threepidNotFound
                  "No account is associated with this login")

def requestPasswordChangeTokenViaEmailRoute : Route (SessionId × Address) := do
  let clientSecret ← parseClientSecret config body.clientSecret
  let email ← emailForPasswordReset config body.email
  let session ← sendValidationCodeEmail config surroundings email clientSecret
    body.sendAttempt
  pure (session, email)

def submitPasswordChangeTokenViaEmailRoute (body : EmailSubmitToken) :
    Route String := do
  let _ ← parseClientSecret config body.clientSecret
  let sid ← parseSessionId config body.sid
  tryValidateSession surroundings sid body.token
  pure body.sid

def sendValidationEmail (recipient : Address) (clientSecret : ClientSecret)
    (sendAttempt : Nat) : Route SessionId :=
  onThreepid (fun threepid =>
    let (sent, threepid) := threepid.sendValidationEmail config.threepid
      surroundings.draws recipient clientSecret sendAttempt
    (sent.result, threepid))

def managementAddress : Route Address := do
  refuseIf (!(emailRequirement config.smtp).mayChange)
    (.request .forbidden "You may not change your email address.")
  refuseIf (!config.settings.grammar.validAddress body.email)
    (.request .invalidParam "Invalid email address.")
  requireUnused config body.email
  pure body.email

/-- The client secret of this request is parsed before the route is called. -/
def request3pidManagementTokenViaEmailRoute : Route SessionId := do
  let email ← managementAddress config body
  sendValidationEmail config surroundings email body.clientSecret
    body.sendAttempt

end

def threepidValidation (session : SessionId) (token : String) : Route Unit :=
  tryCatch (tryValidateSession surroundings session token) (fun error =>
    match error with
    | .request _ message => throw (.webBadRequest message)
    | other => throw other)

end

end ArcanaServer.Api
