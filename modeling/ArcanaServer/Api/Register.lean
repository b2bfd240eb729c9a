import ArcanaServer.Api.Session

namespace ArcanaServer.Api

open Library Users Threepid

/-! Registration.  Other requests can act wherever the route waits for a table
or for another service, so it is given as its steps from one wait to the
next. -/

structure RegisterRequest where
  email : String
  clientSecret : String
  sid : String
  password : String
  username : Option String
  deviceId : Option DeviceId
  initialDeviceDisplayName : Option String
  inhibitLogin : Bool
  deriving DecidableEq, Repr

inductive RegisterError where
  | known (error : Users.Error)
  | exclusive (message : String)
  | userInUse (message : String)
  deriving DecidableEq, Repr

/-- `parseError` and `strictError` are the texts of the crate that parses user
IDs. -/
structure RegisterConfig where
  client : ClientConfig
  emergencyMode : Bool
  forbiddenUsername : String → Bool
  parseError : String → String
  strictError : UserId → Option String
  newUserDisplaynameSuffix : String
  suspendOnRegister : Bool

namespace RegisterConfig

def grammar (config : RegisterConfig) : Grammar :=
  config.client.settings.grammar

end RegisterConfig

structure RegisterOutside where
  users : Outside
  isFirstRun : Bool
  randomUsername : String
  newToken : String
  isExclusiveUserId : UserId → Bool
  updatePushRules : UserId → Except Users.Error Unit
  empowerFirstUser : UserId → Except Users.Error Bool

structure RegisterResponse where
  accessToken : Option String
  userId : UserId
  deviceId : Option DeviceId
  deriving DecidableEq, Repr

inductive RegisterStage where
  | emailCheck (suppliedUsername : Option String)
  | userCheck (suppliedUsername : Option String)
  | lowercaseCheck (userId : UserId)
  | randomCheck
  | exclusiveCheck (userId : UserId)
  | consume (userId : UserId)
  | create (userId : UserId) (email : Address)
  | bindCheck (userId : UserId) (email : Address)
  | bindScan (userId : UserId) (email : Address)
  | bindWrite (userId : UserId) (email : Address)
  | profile (userId : UserId) (email : Address)
  | device (userId : UserId) (email : Address)
  | empower (userId : UserId) (email : Address) (token : Option String)
      (device : Option DeviceId)
  | ended (result : Except RegisterError RegisterResponse)

/-- An account that a call has created, and whether it was there before. -/
structure NewAccount where
  userId : UserId
  existed : Bool
  deriving DecidableEq, Repr

/-- A call, with the address it has verified and what it has left in the tables
so far. -/
structure RegisterCall where
  request : RegisterRequest
  client : String
  stage : RegisterStage
  verified : Option Address
  account : Option NewAccount
  binding : Option (Localpart × String)

structure Homeserver where
  services : Services
  displaynames : UserId → Option String
  suspended : UserId → Bool

section

variable (config : RegisterConfig) (outside : RegisterOutside)

def requestError (kind : ErrorKind) (message : String) : RegisterError :=
  .known (.request kind message)

def addressUser (email : Address) : String :=
  String.ofList ((email.toList.reverse.dropWhile
    (fun char => char ≠ '@')).drop 1).reverse

def parseRegistrationEmail (submittedEmail : String)
    (username : Option String) : Except RegisterError (Option String) :=
  if config.grammar.validAddress submittedEmail then
    let localpart := addressUser submittedEmail
    .ok (username <|> (if localpart.isEmpty then none else some localpart))
  else .error (requestError .invalidParam "Invalid email address.")

def beginRegister (request : RegisterRequest) :
    Except RegisterError (Option String) := do
  if !config.client.allowRegistration && !outside.isFirstRun then
    throw (requestError .forbidden
      "This server is not accepting registrations at this time.")
  if !(emailRequirement config.client.smtp).mayChange then
    throw (requestError .forbidden "Email verification is unavailable.")
  if !config.grammar.validClientSecret request.clientSecret then
    throw (requestError .invalidParam "Invalid client_secret")
  if !config.grammar.validSessionId request.sid then
    throw (requestError .invalidParam "Invalid sid")
  parseRegistrationEmail config request.email request.username

def parseRegistrationUserId (suppliedUsername : String) :
    Except RegisterError (UserId × UserId) :=
  if config.forbiddenUsername suppliedUsername && !config.emergencyMode then
    .error (requestError .forbidden "Username is forbidden")
  else
    match config.grammar.parseWithServerName suppliedUsername with
    | none => .error (requestError .invalidUsername ("Username " ++
        suppliedUsername ++ " is not valid: " ++
        config.parseError suppliedUsername))
    | some userId =>
        match config.strictError userId with
        | some reason =>
            if !config.emergencyMode then
              .error (requestError .invalidUsername ("Username " ++
                suppliedUsername ++
                " contains disallowed characters or spaces: " ++ reason))
            else lowercased userId
        | none => lowercased userId
where
  lowercased (userId : UserId) : Except RegisterError (UserId × UserId) :=
    if !config.grammar.userIsLocal userId then
      .error (requestError .invalidUsername ("Username " ++
        suppliedUsername ++ " is not local to this server"))
    else
      match config.grammar.parseWithServerName
          (config.grammar.toLowercase suppliedUsername) with
      | none => .error (.known
          (.panic "called `Result::unwrap()` on an `Err` value"))
      | some lowercasedUserId => .ok (userId, lowercasedUserId)

def displaynameOf (userId : UserId) : String :=
  if config.newUserDisplaynameSuffix.isEmpty then userId.localpart
  else userId.localpart ++ " " ++ config.newUserDisplaynameSuffix

namespace RegisterCall

variable (call : RegisterCall)

def goTo (stage : RegisterStage) : RegisterCall := { call with stage }

def fail (error : RegisterError) : RegisterCall :=
  call.goTo (.ended (.error error))

def bindTo (userId : UserId) (email : Address) : RegisterCall :=
  { call with
    stage := .profile userId email
    binding := some (userId.localpart, config.grammar.normalizeEmail email) }

variable (server : Homeserver)

def checkEmail (email : String) : Option Localpart × Homeserver :=
  let found := server.services.emails.getLocalpartForEmail config.grammar email
  (found.1, { server with
    services := { server.services with emails := found.2 } })

def emailInUse : RegisterError :=
  requestError .threepidInUse "This email address is already in use."

def userInUse : RegisterError := .userInUse "User ID is not available."

def checkUser (suppliedUsername : Option String) : RegisterCall :=
  match suppliedUsername with
  | none => call.goTo .randomCheck
  | some suppliedUsername =>
      match parseRegistrationUserId config suppliedUsername with
      | .error error => call.fail error
      | .ok (userId, lowercasedUserId) =>
          if server.services.accounts.exists userId then call.fail userInUse
          else call.goTo (.lowercaseCheck lowercasedUserId)

/-- The loop goes on until a name is free. -/
def checkRandom : RegisterCall :=
  match config.grammar.parseWithServerName
      (config.grammar.toLowercase outside.randomUsername) with
  | none => call.fail (.known
      (.panic "called `Result::unwrap()` on an `Err` value"))
  | some userId =>
      if server.services.accounts.exists userId then call.goTo .randomCheck
      else call.goTo (.exclusiveCheck userId)

def consumeSession (userId : UserId) : RegisterCall × Homeserver :=
  let (result, threepid) := server.services.threepid.consumeValidSession
    call.request.sid call.request.clientSecret
  let consumed := { server with
    services := { server.services with threepid } }
  match result with
  | .error failure => (call.fail (.known (ofFailure failure)), consumed)
  | .ok email =>
      if config.grammar.normalizeEmail email ≠
          config.grammar.normalizeEmail call.request.email then
        (call.fail (requestError .threepidAuthFailed
          "Verification email does not match the supplied address"), consumed)
      else ({ call with
        stage := .create userId email, verified := some email }, consumed)

section

variable (server : Homeserver) (userId : UserId) (email : Address)

def createAccount : RegisterCall × Homeserver :=
  let existed := server.services.accounts.exists userId
  let (result, accounts) := server.services.accounts.create
    config.client.settings outside.users userId (some call.request.password)
    none
  let created := { server with
    services := { server.services with accounts } }
  match result with
  | .error error => (call.fail (.known error), created)
  | .ok () => ({ call with
      stage := .bindCheck userId email
      account := some ⟨userId, existed⟩ }, created)

def checkBinding : RegisterCall × Homeserver :=
  let (owner, server) :=
    checkEmail config server (config.grammar.normalizeEmail email)
  match owner with
  | some existingLocalpart =>
      if existingLocalpart ≠ userId.localpart then
        (call.fail emailInUse, server)
      else (call.bindTo config userId email, server)
  | none => (call.goTo (.bindScan userId email), server)

def scanBinding : RegisterCall :=
  let matchingLocalparts :=
    server.services.emails.findLocalpartsForNormalizedEmail config.grammar
      (config.grammar.normalizeEmail email)
  if matchingLocalparts.any (fun existing => existing ≠ userId.localpart) then
    call.fail emailInUse
  else call.goTo (.bindWrite userId email)

def writeBinding : RegisterCall × Homeserver :=
  let removed := (server.services.emails.disassociateLocalpartEmail
    config.grammar userId.localpart).2
  let emails := removed.insertEmail userId.localpart
    (config.grammar.normalizeEmail email)
  (call.bindTo config userId email, { server with
    services := { server.services with emails } })

def setProfile : RegisterCall × Homeserver :=
  let named := { server with
    displaynames := Function.update server.displaynames userId
      (some (displaynameOf config userId)) }
  match outside.updatePushRules userId with
  | .error error => (call.fail (.known error), named)
  | .ok () => (call.goTo (.device userId email), named)

def addDevice : RegisterCall × Homeserver :=
  if call.request.inhibitLogin then
    (call.goTo (.empower userId email none none), server)
  else
    let deviceId := call.request.deviceId.getD outside.users.randomDeviceId
    let (result, accounts) := server.services.accounts.createDevice
      config.client.settings userId deviceId outside.newToken
      call.request.initialDeviceDisplayName (some call.client)
    let added := { server with
      services := { server.services with accounts } }
    match result with
    | .error error => (call.fail (.known error), added)
    | .ok () =>
        (call.goTo (.empower userId email (some outside.newToken)
          (some deviceId)), added)

end

def empowerUser (server : Homeserver) (userId : UserId)
    (token : Option String) (device : Option DeviceId) :
    RegisterCall × Homeserver :=
  match outside.empowerFirstUser userId with
  | .error error => (call.fail (.known error), server)
  | .ok wasFirstUser =>
      (call.goTo (.ended (.ok
        { accessToken := token, userId, deviceId := device })),
        { server with
          suspended :=
            if !wasFirstUser && config.suspendOnRegister then
              Function.update server.suspended userId true
            else server.suspended })

def proceed (server : Homeserver) : RegisterCall × Homeserver :=
  match call.stage with
  | .emailCheck suppliedUsername =>
      let (owner, server) := checkEmail config server call.request.email
      if owner.isSome then (call.fail emailInUse, server)
      else (call.goTo (.userCheck suppliedUsername), server)
  | .userCheck suppliedUsername =>
      (call.checkUser config server suppliedUsername, server)
  | .lowercaseCheck userId =>
      if server.services.accounts.exists userId then
        (call.fail userInUse, server)
      else (call.goTo (.exclusiveCheck userId), server)
  | .randomCheck => (call.checkRandom config outside server, server)
  | .exclusiveCheck userId =>
      if outside.isExclusiveUserId userId && !config.emergencyMode then
        (call.fail (.exclusive "Username is reserved by an appservice."),
          server)
      else (call.goTo (.consume userId), server)
  | .consume userId => call.consumeSession config server userId
  | .create userId email =>
      call.createAccount config outside server userId email
  | .bindCheck userId email => call.checkBinding config server userId email
  | .bindScan userId email =>
      (call.scanBinding config server userId email, server)
  | .bindWrite userId email => call.writeBinding config server userId email
  | .profile userId email =>
      call.setProfile config outside server userId email
  | .device userId email => call.addDevice config outside server userId email
  | .empower userId _ token device =>
      call.empowerUser config outside server userId token device
  | .ended _ => (call, server)

end RegisterCall

end

structure RegisterWorld where
  server : Homeserver
  calls : List RegisterCall

inductive RegisterAction where
  | start (request : RegisterRequest) (client : String)
      (outside : RegisterOutside)
  | advance (index : Nat) (outside : RegisterOutside)

namespace RegisterWorld

def step (config : RegisterConfig) (world : RegisterWorld) :
    RegisterAction → RegisterWorld × Unit
  | .start request client outside =>
      let call (stage : RegisterStage) : RegisterCall :=
        { request, client, stage, verified := none, account := none
          binding := none }
      let stage := match beginRegister config outside request with
        | .error error => .ended (.error error)
        | .ok suppliedUsername => .emailCheck suppliedUsername
      ({ world with calls := world.calls ++ [call stage] }, ())
  | .advance index outside =>
      match world.calls[index]? with
      | none => (world, ())
      | some call =>
          let (call, server) := call.proceed config outside world.server
          ({ server, calls := world.calls.set index call }, ())

end RegisterWorld

end ArcanaServer.Api
