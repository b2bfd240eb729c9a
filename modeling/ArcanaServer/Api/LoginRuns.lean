import ArcanaServer.Api.LoginEffects

namespace ArcanaServer.Api

open Library Users Threepid List

inductive ClientRequest where
  | login (client : String) (body : LoginRequest)
  | requestRegistrationToken (body : EmailRequestToken)
  | submitRegistrationToken (body : EmailSubmitToken)
  | requestPasswordChangeToken (body : EmailRequestToken)
  | submitPasswordChangeToken (body : EmailSubmitToken)
  | request3pidManagementToken (body : EmailRequestToken)
  | threepidValidation (session : SessionId) (token : String)

structure ClientCall where
  surroundings : Surroundings
  request : ClientRequest

inductive ClientResponse where
  | login (result : Except Error LoginFlowResponse)
  | sid (result : Except Error String)
  | passwordChange (result : Except Error (SessionId × Address))
  | validated (result : Except Error Unit)

def answer {α : Type} (route : Route α)
    (respond : Except Error α → ClientResponse) (services : Services) :
    Services × ClientResponse :=
  (ended (route services), respond (outcome (route services)))

section

variable (config : ClientConfig)

def clientStep (services : Services) (call : ClientCall) :
    Services × ClientResponse :=
  match call.request with
  | .login client body =>
      answer (loginRoute config call.surroundings client body) .login services
  | .requestRegistrationToken body =>
      answer (requestRegistrationTokenViaEmailRoute config call.surroundings
        body) .sid services
  | .submitRegistrationToken body =>
      answer (submitRegistrationTokenViaEmailRoute config call.surroundings
        body) .sid services
  | .requestPasswordChangeToken body =>
      answer (requestPasswordChangeTokenViaEmailRoute config call.surroundings
        body) .passwordChange services
  | .submitPasswordChangeToken body =>
      answer (submitPasswordChangeTokenViaEmailRoute config call.surroundings
        body) .sid services
  | .request3pidManagementToken body =>
      answer (request3pidManagementTokenViaEmailRoute config call.surroundings
        body) .sid services
  | .threepidValidation session token =>
      answer (threepidValidation call.surroundings session token) .validated
        services

abbrev ClientEntry := Entry Services ClientCall ClientResponse

/-- The call has opened the session: a client secret without a session has got
it. -/
def Opens (entry : ClientEntry) (key : SessionId) : Prop := ∃ clientSecret,
    entry.before.threepid.sessions.clientSecrets clientSecret = none ∧
      (clientStep config entry.before
        entry.input).1.threepid.sessions.clientSecrets clientSecret = some key

def ClientRequest.isLogin : ClientRequest → Bool
  | .login _ _ => true
  | _ => false

/-- The session was opened by another route than `login_route`. -/
def OpenedElsewhere (history : List ClientEntry) (key : SessionId) : Prop :=
  ∃ before entry after, history = before ++ entry :: after ∧
    Opens config entry key ∧ (∀ later ∈ after, ¬ Opens config later key) ∧
    entry.input.request.isLogin = false

def StepByLogin (history : List ClientEntry) (entry : ClientEntry) : Prop :=
  ∀ client body sid token, entry.input.request = .login client body →
    body.sid = some sid → body.token = some token →
    ¬ OpenedElsewhere config history sid

def PassesPassword (entry : ClientEntry) (clientSecret : String)
    (userId : UserId) : Prop :=
  ∃ client body login password after, entry.input.request = .login client body ∧
      body.clientSecret = clientSecret ∧
      body.sid = none ∧ body.token = none ∧
      body.login = some login ∧ body.password = some password ∧
      handleLogin config entry.input.surroundings login password
        entry.before = .ok userId after

def LoginAllows (entry : ClientEntry) (email : Address)
    (clientSecret : ClientSecret) : Prop :=
  entry.input.request.isLogin = true → ∃ userId,
    PassesPassword config entry clientSecret userId ∧
      (∃ name, parseUserId config name = some userId) ∧
      config.settings.grammar.userIsLocal userId = true ∧
      entry.before.emails.localpartEmail.lookup userId.localpart = some email

variable {config}

variable {services after : Services}

theorem emailForLogin_ok {userId : UserId} {email : Address}
    (found : emailForLogin config userId services = .ok email after) :
    services.emails.localpartEmail.lookup userId.localpart = some email := by
  obtain ⟨read, _, isRead, answered⟩ := bind_ok found
  cases isRead
  cases isEmail : services.emails.getEmailForLocalpart config.settings.grammar
      userId.localpart with
  | none =>
      rw [isEmail] at answered
      cases answered
  | some stored =>
      rw [isEmail] at answered
      cases answered
      exact EmailTables.getEmailForLocalpart_eq_some isEmail

theorem parseClientSecret_ok {clientSecret parsed : String}
    (valid : parseClientSecret config clientSecret services =
      .ok parsed after) : parsed = clientSecret ∧ after = services := by
  unfold parseClientSecret at valid
  split at valid
  · cases valid
    exact ⟨rfl, rfl⟩
  · cases valid

theorem parseSessionId_ok {sid parsed : String}
    (valid : parseSessionId config sid services = .ok parsed after) :
    parsed = sid ∧ after = services := by
  unfold parseSessionId at valid
  split at valid
  · cases valid
    exact ⟨rfl, rfl⟩
  · cases valid

section

variable (services : Services) (surroundings : Surroundings) (client : String)
  (body : LoginRequest)

theorem startLogin_effect :
    Effect config.settings.grammar surroundings.draws
      (LoginAllows config (entryOf (clientStep config) services
        ⟨surroundings, .login client body⟩)) services
      (ended (startLogin config surroundings body services)) := by
  refine .bind (keeps_loginPassword config surroundings body)
    (fun passed middle isPassed => ?_)
  have aside := keeps_loginPassword config surroundings body services
  rw [isPassed] at aside
  obtain ⟨login, password, noSid, noToken, isLogin, isPassword, handled⟩ :=
    loginPassword_ok config surroundings isPassed
  refine .bind (keeps_emailForLogin config passed.1)
    (fun email second isEmail => ?_)
  refine .bind (keeps_parseClientSecret config body.clientSecret)
    (fun clientSecret third isSecret => ?_)
  rw [ended_bind_pure]
  refine (sendValidationCodeEmail_effect config surroundings email
    clientSecret passed.2 third).mono ?_
  intro address secret same _
  obtain ⟨isParsed, isLocal⟩ := handleLogin_ok config surroundings handled
  have row := emailForLogin_ok isEmail
  have sameRows : middle.emails.localpartEmail =
      services.emails.localpartEmail := aside.emails.rows
  rw [sameRows] at row
  rw [same.1, same.2, (parseClientSecret_ok isSecret).1]
  exact ⟨passed.1, ⟨client, body, login, password, middle, rfl, rfl, noSid,
    noToken, isLogin, isPassword, handled⟩, isParsed, isLocal, row⟩

theorem keeps_submitLogin (sid token : String) :
    Keeps (Quiet config.settings.grammar)
      (submitLogin config surroundings client body sid token) := by
  refine .bind (Aside.keepsQuiet (keeps_parseSessionId config sid))
    (fun sid => ?_)
  refine .bind (Aside.keepsQuiet (keeps_parseClientSecret config _))
    (fun clientSecret => ?_)
  exact .bind (keeps_finishLogin config surroundings client body sid token
    clientSecret) (fun response => .pure _)

theorem loginRoute_effect :
    Effect config.settings.grammar surroundings.draws
      (LoginAllows config (entryOf (clientStep config) services
        ⟨surroundings, .login client body⟩)) services
      (ended (loginRoute config surroundings client body services)) := by
  have started : Effect config.settings.grammar surroundings.draws _ services
      (ended (startLogin config surroundings body services)) :=
    startLogin_effect services surroundings client body
  unfold loginRoute
  cases body.sid with
  | none => exact started
  | some sid =>
      cases body.token with
      | none => exact started
      | some token =>
          exact .inl (keeps_submitLogin surroundings client body sid token
            services)

end

theorem clientStep_effect (services : Services) (call : ClientCall) :
    Effect config.settings.grammar call.surroundings.draws
      (LoginAllows config (entryOf (clientStep config) services call))
      services (clientStep config services call).1 := by
  obtain ⟨surroundings, request⟩ := call
  have elsewhere : request.isLogin = false → ∀ email clientSecret, True →
      LoginAllows config (entryOf (clientStep config) services
        ⟨surroundings, request⟩) email clientSecret := by
    intro notLogin email clientSecret _ isLogin
    have impossible : request.isLogin = true := isLogin
    rw [notLogin] at impossible
    cases impossible
  cases request with
  | login client body =>
      exact loginRoute_effect services surroundings client body
  | requestRegistrationToken body =>
      exact (requestRegistrationToken_effect config surroundings body
        services).mono (elsewhere rfl)
  | submitRegistrationToken body =>
      exact .inl (keeps_submitRegistrationToken config surroundings body
        services)
  | requestPasswordChangeToken body =>
      exact (requestPasswordChangeToken_effect config surroundings body
        services).mono (elsewhere rfl)
  | submitPasswordChangeToken body =>
      exact .inl (keeps_submitPasswordChangeToken config surroundings body
        services)
  | request3pidManagementToken body =>
      exact (request3pidManagementToken_effect config surroundings body
        services).mono (elsewhere rfl)
  | threepidValidation session token =>
      exact .inl (keeps_threepidValidation surroundings session token services)

def Opened (config : ClientConfig) (history : List ClientEntry)
    (key : SessionId) (email : Address) (clientSecret : ClientSecret) : Prop :=
  ∃ before entry after, history = before ++ entry :: after ∧
    Opens config entry key ∧ (∀ later ∈ after, ¬ Opens config later key) ∧
    LoginAllows config entry email clientSecret

structure LoginInv (config : ClientConfig)
    (rows : AList (fun _ : Localpart => String)) (history : List ClientEntry)
    (services : Services) : Prop where
  oneToOne : services.emails.OneToOne config.settings.grammar
  unchanged : services.emails.localpartEmail = rows
  entries : ∀ entry ∈ history, entry.before.emails.localpartEmail = rows
  opened : ∀ key session, services.threepid.sessions.sessions key =
      some session →
    Opened config history key session.email session.clientSecret

variable {clientSecret : ClientSecret}

theorem Opened.snoc {history : List ClientEntry} {key : SessionId}
    {email : Address} {entry : ClientEntry}
    (opened : Opened config history key email clientSecret)
    (other : ¬ Opens config entry key) :
    Opened config (history ++ [entry]) key email clientSecret := by
  obtain ⟨before, opening, after, split, opens, last, allows⟩ := opened
  refine ⟨before, opening, after ++ [entry], ?_, opens, ?_, allows⟩
  · rw [split, append_assoc, cons_append]
  · exact forall_mem_snoc last other

theorem Quiet.not_opens {call : ClientCall}
    (quiet : Quiet config.settings.grammar services
      (clientStep config services call).1) (key : SessionId) :
    ¬ Opens config (entryOf (clientStep config) services call) key := by
  intro opens
  obtain ⟨clientSecret, missing, present⟩ := opens
  have old := quiet.narrows.clientSecrets clientSecret key present
  rw [show services.threepid.sessions.clientSecrets clientSecret = none from
    missing] at old
  cases old

theorem opens_created {call : ClientCall} {email : Address}
    {token : ValidationToken}
    (missing : services.threepid.sessions.clientSecrets clientSecret = none)
    (created : (clientStep config services call).1.threepid.sessions =
      (services.threepid.sessions.createSessionWithToken
        call.surroundings.draws email clientSecret token).2) (key : SessionId) :
    Opens config (entryOf (clientStep config) services call) key ↔
      key = call.surroundings.draws.sessionId := by
  simp only [Opens, entryOf, created]
  constructor
  · intro opens
    obtain ⟨other, isMissing, present⟩ := opens
    rcases update_eq_some present with known | new
    · rw [isMissing] at known
      cases known
    · exact new.2
  · intro same
    rw [same]
    exact ⟨clientSecret, missing, Function.update_self _ _ _⟩

theorem LoginInv.step {rows : AList (fun _ : Localpart => String)}
    (history : List ClientEntry) (services : Services) (call : ClientCall)
    (inv : LoginInv config rows history services) :
    LoginInv config rows
      (history ++ [entryOf (clientStep config) services call])
      (clientStep config services call).1 := by
  have entries : ∀ entry ∈
      history ++ [entryOf (clientStep config) services call],
      entry.before.emails.localpartEmail = rows := by
    exact forall_mem_snoc inv.entries inv.unchanged
  rcases clientStep_effect services call with quiet | opening
  · refine ⟨quiet.emails.oneToOne inv.oneToOne,
      quiet.emails.rows.trans inv.unchanged, entries, ?_⟩
    intro key session found
    obtain ⟨old, isOld, secret, email⟩ :=
      quiet.narrows.sessions key session found
    rw [← secret, ← email]
    exact (inv.opened key old isOld).snoc (quiet.not_opens key)
  · obtain ⟨email, clientSecret, token, allowed, emails, missing, created⟩ :=
      opening
    refine ⟨emails.oneToOne inv.oneToOne, emails.rows.trans inv.unchanged,
      entries, ?_⟩
    intro key session found
    rw [created] at found
    rcases Decidable.em (key = call.surroundings.draws.sessionId) with
      same | different
    · subst same
      cases (Function.update_self _ _ _).symm.trans found
      exact ⟨history, _, [], rfl,
        (opens_created missing created _).mpr rfl, by simp, allowed⟩
    · have old : services.threepid.sessions.sessions key = some session :=
        (Function.update_of_ne different _ _).symm.trans found
      refine (inv.opened key session old).snoc ?_
      intro opens
      exact different ((opens_created missing created key).mp opens)

theorem reaches_loginInv {start : Services} {history : List ClientEntry}
    (empty : start.threepid = Threepid.Service.empty)
    (oneToOne : start.emails.OneToOne config.settings.grammar)
    (reaches : Reaches (clientStep config) start history services) :
    LoginInv config start.emails.localpartEmail history services := by
  have always : Always (fun _ _ => True) history := fun _ _ _ _ => trivial
  refine reaches.invariant (LoginInv config start.emails.localpartEmail) ?_ ?_
    always
  · refine ⟨oneToOne, rfl, by simp, ?_⟩
    intro key session found
    rw [empty] at found
    cases found
  · intro history services call inv _
    exact LoginInv.step history services call inv

theorem onThreepid_ok {α : Type}
    {operation : Threepid.Service → Except Failure α × Threepid.Service}
    {value : α} (result : onThreepid operation services = .ok value after) :
    (operation services.threepid).1 = .ok value := by
  unfold onThreepid onPart at result
  cases computed : (operation services.threepid).1 with
  | error failure =>
      simp only [computed, Except.mapError] at result
      cases result
  | ok computedValue =>
      simp only [computed, Except.mapError] at result
      cases result
      rfl

variable {surroundings : Surroundings} {client : String} {body : LoginRequest}

theorem finishLogin_ok {sid : SessionId} {token : String}
    {response : LoginResponse}
    (finished : finishLoginAfterEmailCode config surroundings client body sid
      token clientSecret services = .ok response after) :
    ∃ session middle localpart,
      services.threepid.sessions.sessions sid = some session ∧
        session.clientSecret = clientSecret ∧
        EmailsKept config.settings.grammar services.emails middle ∧
        (middle.getLocalpartForEmail config.settings.grammar
          session.email).1 = some localpart ∧
        parseUserId config localpart = some response.userId := by
  obtain ⟨_, _, isSid, parsing⟩ := bind_ok finished
  obtain ⟨sameSid, same⟩ := parseSessionId_ok isSid
  rw [sameSid, same] at parsing
  obtain ⟨_, _, isSecret, validating⟩ := bind_ok parsing
  obtain ⟨sameSecret, same⟩ := parseClientSecret_ok isSecret
  rw [sameSecret, same] at validating
  obtain ⟨_, validated, isValidated, consuming⟩ := bind_ok validating
  have quiet : Quiet config.settings.grammar services
      (ended (tryValidateSession surroundings sid token services)) :=
    keeps_tryValidateSession surroundings sid token services
  rw [isValidated] at quiet
  obtain ⟨email, consumed, isConsumed, finding⟩ := bind_ok consuming
  have quiet' : Quiet config.settings.grammar validated
      (ended (consumeValidSession sid clientSecret validated)) :=
    keeps_consumeValidSession sid clientSecret validated
  rw [isConsumed] at quiet'
  obtain ⟨session, isSession, secret, _, isEmail⟩ :=
    consumeValidSession_ok (onThreepid_ok isConsumed)
  obtain ⟨old, isOld, oldSecret, oldEmail⟩ :=
    quiet.narrows.sessions sid session isSession
  obtain ⟨found, _, isFound, naming⟩ := bind_ok finding
  have lookup : found = (consumed.emails.getLocalpartForEmail
      config.settings.grammar email).1 := by
    cases isFound
    rfl
  refine ⟨old, consumed.emails, ?_⟩
  cases found with
  | none => cases naming
  | some localpart =>
      refine ⟨localpart, isOld, oldSecret.trans secret,
        quiet.emails.trans quiet'.emails, ?_, ?_⟩
      · rw [oldEmail, isEmail, lookup]
      · cases isParsed : parseUserId config localpart with
        | none =>
            simp only [isParsed] at naming
            cases naming
        | some userId =>
            simp only [isParsed] at naming
            obtain ⟨_, _, _, completing⟩ := bind_ok naming
            obtain ⟨_, _, _, answered⟩ := bind_ok completing
            cases answered
            rfl

theorem loginRoute_final {response : LoginResponse}
    (final : outcome (loginRoute config surroundings client body services) =
      .ok (.final response)) :
    ∃ sid token after, body.sid = some sid ∧ body.token = some token ∧
      finishLoginAfterEmailCode config surroundings client body sid token
        body.clientSecret services = .ok response after := by
  obtain ⟨after, result⟩ := outcome_ok final
  have notStarted : startLogin config surroundings body services ≠
      .ok (.final response) after := by
    intro started
    obtain ⟨_, _, _, passed⟩ := bind_ok started
    obtain ⟨_, _, _, addressed⟩ := bind_ok passed
    obtain ⟨_, _, _, parsed⟩ := bind_ok addressed
    obtain ⟨_, _, _, sent⟩ := bind_ok parsed
    cases sent
  unfold loginRoute at result
  cases isSid : body.sid with
  | none =>
      rw [isSid] at result
      exact absurd result notStarted
  | some sid =>
      cases isToken : body.token with
      | none =>
          rw [isSid, isToken] at result
          exact absurd result notStarted
      | some token =>
          rw [isSid, isToken] at result
          obtain ⟨_, _, parsed, parsing⟩ := bind_ok result
          obtain ⟨sameSid, same⟩ := parseSessionId_ok parsed
          rw [sameSid, same] at parsing
          obtain ⟨_, _, parsed, finishing⟩ := bind_ok parsing
          obtain ⟨sameSecret, same⟩ := parseClientSecret_ok parsed
          rw [sameSecret, same] at finishing
          obtain ⟨_, ended, finished, answered⟩ := bind_ok finishing
          cases answered
          exact ⟨sid, token, _, rfl, rfl, finished⟩

/-- A login is finished only for a user whose password check an earlier login
with the same client secret has passed. -/
theorem final_passesPassword {start services : Services}
    {history earlier later : List ClientEntry} {entry : ClientEntry}
    {client : String} {body : LoginRequest} {response : LoginResponse}
    (empty : start.threepid = Threepid.Service.empty)
    (oneToOne : start.emails.OneToOne config.settings.grammar)
    (reaches : Reaches (clientStep config) start history services)
    (always : Always (StepByLogin config) history)
    (split : history = earlier ++ entry :: later)
    (asks : entry.input.request = .login client body)
    (answers : entry.output = .login (.ok (.final response))) :
    ∃ passed ∈ earlier,
      PassesPassword config passed body.clientSecret response.userId := by
  obtain ⟨reached, isEntry⟩ := reaches.entry split
  have inv := reaches_loginInv empty oneToOne reached
  have final : outcome (loginRoute config entry.input.surroundings client body
      entry.before) = .ok (.final response) := by
    rw [isEntry] at answers
    simpa only [entryOf, clientStep, asks, answer,
      ClientResponse.login.injEq] using answers
  obtain ⟨sid, token, _, isSid, isToken, finished⟩ := loginRoute_final final
  obtain ⟨session, middle, localpart, stored, secret, kept, found, parsed⟩ :=
    finishLogin_ok finished
  obtain ⟨before, opening, after, history', opens, last, allows⟩ :=
    inv.opened sid session stored
  have member : opening ∈ earlier := by
    rw [history']
    exact mem_append_right _ mem_cons_self
  have isLogin : opening.input.request.isLogin = true := by
    cases kind : opening.input.request.isLogin with
    | true => rfl
    | false =>
        exact absurd ⟨before, opening, after, history', opens, last, kind⟩
          (always earlier entry later split client body sid token asks isSid
            isToken)
  obtain ⟨userId, passes, ⟨name, isParsed⟩, isLocal, row⟩ := allows isLogin
  have owns : middle.localpartEmail.lookup userId.localpart =
      some session.email := by
    rw [kept.rows, inv.unchanged, ← inv.entries opening member]
    exact row
  have sameLocalpart := EmailTables.getLocalpartForEmail_unique
    (kept.oneToOne inv.oneToOne) owns found
  rw [sameLocalpart] at parsed
  have sameUser := Grammar.parseWithServerName_localpart _ isParsed isLocal
    parsed
  rw [sameUser, ← secret]
  exact ⟨opening, member, passes⟩

end

def aliceConfig : ClientConfig where
  settings := asciiSettings
  threepid := mailing
  smtp := some { requireEmailForRegistration := true
                 requireEmailForTokenRegistration := true }
  allowRegistration := true

def alice : UserId where
  localpart := "alice"
  serverName := "server"

def aliceServices : Services where
  threepid := .empty
  emails :=
    { localpartEmail := AList.singleton "alice" "alice@mail"
      emailLocalpart := fun email =>
        if email = "alice@mail" then some "alice" else none }
  accounts := oneAccount alice "wonder"

def aliceSurroundings : Surroundings where
  users := withoutLdap
  draws := drawing 1234
  isFirstRun := false

def resetCall : ClientCall where
  surroundings := aliceSurroundings
  request := .requestPasswordChangeToken
    { clientSecret := "secret", email := "alice", sendAttempt := 1 }

def passwordCall : ClientCall where
  surroundings := aliceSurroundings
  request := .login "127.0.0.1"
    { clientSecret := "secret"
      login := some "alice"
      password := some "wonder"
      sendAttempt := some 1
      sid := none
      token := none
      deviceId := none
      initialDeviceDisplayName := none }

def codeBody : LoginRequest where
  clientSecret := "secret"
  login := none
  password := none
  sendAttempt := none
  sid := some "session"
  token := some "1234"
  deviceId := none
  initialDeviceDisplayName := none

def codeCall : ClientCall where
  surroundings := aliceSurroundings
  request := .login "127.0.0.1" codeBody

def aliceResponse : LoginResponse where
  userId := alice
  accessToken := "token"
  deviceId := some "device"
  homeServer := some "server"
  refreshToken := none

/-- The code of a password reset finishes a login that no password began. -/
theorem resetCode_not_passesPassword :
    let asked := run (clientStep aliceConfig) aliceServices [resetCall]
    (clientStep aliceConfig asked.2 codeCall).2 =
        .login (.ok (.final aliceResponse)) ∧
      ¬ ∃ passed ∈ asked.1, PassesPassword aliceConfig passed
        codeBody.clientSecret aliceResponse.userId := by
  constructor
  · rfl
  · intro passes
    obtain ⟨passed, member, client, body, login, password, after, asks, _⟩ :=
      passes
    rw [mem_singleton.mp member] at asks
    cases asks

theorem aliceServices_oneToOne :
    aliceServices.emails.OneToOne aliceConfig.settings.grammar := by
  have onlyAlice : ∀ localpart stored,
      aliceServices.emails.localpartEmail.lookup localpart = some stored →
      localpart = "alice" ∧ stored = "alice@mail" := by
    intro localpart stored found
    have member := AList.mem_lookup_iff.mp found
    cases mem_singleton.mp member
    exact ⟨rfl, rfl⟩
  constructor
  · intro left right stored other isLeft isRight _
    rw [(onlyAlice left stored isLeft).1, (onlyAlice right other isRight).1]
  · intro normalized localpart found
    simp only [aliceServices] at found
    split at found
    · rename_i isAlice
      cases found
      exact ⟨"alice@mail", rfl, isAlice.symm⟩
    · cases found

theorem passwordCall_byLogin : Always (StepByLogin aliceConfig)
      (run (clientStep aliceConfig) aliceServices
        [passwordCall, codeCall]).1 := by
  refine (Always.nil.snoc ?_).snoc ?_
  · intro client body sid token asks isSid
    cases asks
    cases isSid
  · intro client body sid token _ _ _ elsewhere
    obtain ⟨before, entry, after, split, _, _, notLogin⟩ := elsewhere
    have member : entry ∈ [] ++ [entryOf (clientStep aliceConfig) aliceServices
        passwordCall] := by
      rw [split]
      exact mem_append_right _ mem_cons_self
    rw [mem_singleton.mp member] at notLogin
    cases notLogin

theorem passwordCall_passesPassword :
    ∃ passed ∈ (run (clientStep aliceConfig) aliceServices [passwordCall]).1,
      PassesPassword aliceConfig passed codeBody.clientSecret
        aliceResponse.userId :=
  final_passesPassword rfl aliceServices_oneToOne
    (reaches_run (clientStep aliceConfig) aliceServices
      [passwordCall, codeCall])
    passwordCall_byLogin rfl rfl rfl

end ArcanaServer.Api
