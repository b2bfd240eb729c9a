import ArcanaServer.Api.Session
import ArcanaServer.Library.Settles
import ArcanaServer.Threepid.SessionTables

namespace ArcanaServer.Api

open Library Users Threepid

variable (grammar : Grammar)

structure EmailsKept (before after : EmailTables) : Prop where
  rows : after.localpartEmail = before.localpartEmail
  oneToOne : before.OneToOne grammar → after.OneToOne grammar

structure Aside (before after : Services) : Prop where
  emails : EmailsKept grammar before.emails after.emails
  threepid : after.threepid = before.threepid

structure Quiet (before after : Services) : Prop where
  emails : EmailsKept grammar before.emails after.emails
  narrows : Narrows before.threepid.sessions after.threepid.sessions

theorem EmailsKept.refl (tables : EmailTables) :
    EmailsKept grammar tables tables := ⟨rfl, id⟩

theorem EmailsKept.trans {grammar : Grammar} {first second third : EmailTables}
    (left : EmailsKept grammar first second)
    (right : EmailsKept grammar second third) :
    EmailsKept grammar first third :=
  ⟨right.rows.trans left.rows, right.oneToOne ∘ left.oneToOne⟩

instance (grammar : Grammar) : IsPreorder Services (Aside grammar) where
  refl _ := ⟨.refl grammar _, rfl⟩
  trans _ _ _ left right :=
    ⟨left.emails.trans right.emails, right.threepid.trans left.threepid⟩

instance (grammar : Grammar) : IsPreorder Services (Quiet grammar) where
  refl _ := ⟨.refl grammar _, .refl _⟩
  trans _ _ _ left right :=
    ⟨left.emails.trans right.emails, left.narrows.trans right.narrows⟩

theorem Aside.quiet {grammar : Grammar} {before after : Services}
    (aside : Aside grammar before after) : Quiet grammar before after := by
  refine ⟨aside.emails, ?_⟩
  rw [aside.threepid]
  exact .refl _

section

variable (config : ClientConfig) (surroundings : Surroundings)

variable {grammar : Grammar}

theorem keeps_onAccounts {α : Type}
    (operation : Accounts → Except Error α × Accounts) :
    Keeps (Aside grammar) (onAccounts operation) := by
  intro services
  unfold onAccounts onPart
  split
  · exact ⟨.refl grammar _, rfl⟩
  · exact ⟨.refl grammar _, rfl⟩

theorem keeps_getLocalpartForEmail (email : String) :
    Keeps (Aside config.settings.grammar)
      (getLocalpartForEmail config email) := by
  intro services
  exact ⟨⟨EmailTables.getLocalpartForEmail_rows email,
    fun oneToOne => oneToOne.getLocalpartForEmail email⟩, rfl⟩

theorem keeps_parseClientSecret (clientSecret : String) :
    Keeps (Aside grammar) (parseClientSecret config clientSecret) := by
  unfold parseClientSecret
  split
  · exact .pure _
  · exact .throw _

theorem keeps_parseSessionId (sid : String) :
    Keeps (Aside grammar) (parseSessionId config sid) := by
  unfold parseSessionId
  split
  · exact .pure _
  · exact .throw _

theorem keeps_require {α : Type} (message : String) (value : Option α) :
    Keeps (Aside grammar) (require message value) := by
  cases value with
  | none => exact .throw _
  | some value => exact .pure value

theorem keeps_emailForLogin (userId : UserId) :
    Keeps (Aside grammar) (emailForLogin config userId) := by
  refine .bind .get (fun services => ?_)
  split
  · exact .pure _
  · exact .throw _

theorem keeps_ldapLogin (userId lowercasedUserId : UserId) (password : String) :
    Keeps (Aside config.settings.grammar)
      (ldapLogin config surroundings userId lowercasedUserId password) := by
  refine .bind (.liftExcept _) (fun found => ?_)
  split
  · exact .bind .get (fun services => .liftExcept _)
  · exact .bind (.liftExcept _) (fun _ => .bind (keeps_onAccounts _)
      (fun _ => .bind (.liftExcept _) (fun _ => .pure _)))

theorem keeps_checkPassword (userId : UserId) (password : String) :
    Keeps (Aside config.settings.grammar)
      (checkPassword config surroundings userId password) := by
  have localLogin : Keeps (Aside config.settings.grammar) (do
      let services ← get
      liftExcept (passwordLogin config services.accounts userId userId
        password) : Route UserId) :=
    .bind .get (fun services => .liftExcept _)
  unfold checkPassword
  simp only
  split
  · refine .tryCatch (keeps_ldapLogin config surroundings _ _ _)
      (fun error => ?_)
    split
    · exact .throw error
    · exact localLogin
  · exact localLogin

theorem keeps_resolveLoginUserId (userId : UserId) :
    Keeps (Aside grammar) (resolveLoginUserId config userId) := by
  unfold resolveLoginUserId
  split
  · exact .throw _
  · exact .bind .get (fun services => .pure _)

theorem keeps_loginLocalpart (login : String) :
    Keeps (Aside config.settings.grammar) (loginLocalpart config login) := by
  unfold loginLocalpart
  split
  · refine .bind (keeps_getLocalpartForEmail config login) (fun found => ?_)
    split
    · exact .pure _
    · exact .throw _
  · split
    · exact .pure _
    · exact .throw _

theorem keeps_checkMayLogIn (userId : UserId) :
    Keeps (Aside grammar) (checkMayLogIn userId) :=
  .bind .get (fun _ => .bind (.liftExcept _) (fun _ =>
    .bind (.refuseIf _ _) (fun _ => .refuseIf _ _)))

theorem keeps_handleLogin (login password : String) :
    Keeps (Aside config.settings.grammar)
      (handleLogin config surroundings login password) := by
  refine .bind (keeps_loginLocalpart config login) (fun localpart => ?_)
  split
  · exact .throw _
  · refine .bind (keeps_resolveLoginUserId config _) (fun userId => ?_)
    refine .bind (.refuseIf _ _) (fun _ => ?_)
    exact .bind (keeps_checkMayLogIn userId) (fun _ =>
      keeps_checkPassword config surroundings userId password)

theorem keeps_loginPassword (body : LoginRequest) :
    Keeps (Aside config.settings.grammar)
      (loginPassword config surroundings body) := by
  refine .bind (.refuseIf _ _) (fun _ => .bind (.refuseIf _ _) (fun _ => ?_))
  refine .bind (keeps_require _ _) (fun login => ?_)
  refine .bind (keeps_require _ _) (fun password => ?_)
  refine .bind (keeps_require _ _) (fun sendAttempt => ?_)
  exact .bind (keeps_handleLogin config surroundings login password)
    (fun userId => .pure _)

theorem keeps_completeLogin (client : String) (userId : UserId)
    (deviceId : Option DeviceId) (initialDeviceDisplayName : Option String) :
    Keeps (Aside grammar) (completeLogin config surroundings client userId
      deviceId initialDeviceDisplayName) :=
  .bind (keeps_onAccounts _) (fun _ => .pure _)

theorem keeps_requireUnused (email : Address) :
    Keeps (Aside config.settings.grammar) (requireUnused config email) := by
  refine .bind (keeps_getLocalpartForEmail config email) (fun found => ?_)
  split
  · exact .throw _
  · exact .pure _

theorem keeps_registrationAddress (body : EmailRequestToken) :
    Keeps (Aside config.settings.grammar)
      (registrationAddress config surroundings body) := by
  refine .bind (.refuseIf _ _) (fun _ => .bind (.refuseIf _ _) (fun _ => ?_))
  refine .bind (keeps_parseClientSecret config _) (fun clientSecret => ?_)
  exact .bind (.refuseIf _ _) (fun _ =>
    .bind (keeps_requireUnused config body.email) (fun _ => .pure _))

theorem keeps_managementAddress (body : EmailRequestToken) :
    Keeps (Aside config.settings.grammar) (managementAddress config body) :=
  .bind (.refuseIf _ _) (fun _ => .bind (.refuseIf _ _) (fun _ =>
    .bind (keeps_requireUnused config body.email) (fun _ => .pure _)))

theorem keeps_emailForPasswordReset (identifier : String) :
    Keeps (Aside config.settings.grammar)
      (emailForPasswordReset config identifier) := by
  refine .bind (.refuseIf _ _) (fun _ => ?_)
  split
  · refine .bind (keeps_getLocalpartForEmail config _) (fun found => ?_)
    split
    · exact .throw _
    · exact .pure _
  · split
    · exact .throw _
    · refine .bind .get (fun services => ?_)
      simp only
      split
      · exact .pure _
      · split
        · exact .pure _
        · exact .throw _

end

/-- A route opens at most one session, for an address and a client secret that
are `allowed`. -/
def Effect (grammar : Grammar) (draws : Draws)
    (allowed : Address → ClientSecret → Prop) (before after : Services) :
    Prop :=
  Quiet grammar before after ∨
    ∃ email clientSecret token, allowed email clientSecret ∧
      EmailsKept grammar before.emails after.emails ∧
      before.threepid.sessions.clientSecrets clientSecret = none ∧
      after.threepid.sessions =
        (before.threepid.sessions.createSessionWithToken draws email
          clientSecret token).2

namespace Effect

variable {grammar : Grammar} {draws : Draws}
  {allowed : Address → ClientSecret → Prop} {first second third : Services}

theorem after (aside : Aside grammar first second)
    (effect : Effect grammar draws allowed second third) :
    Effect grammar draws allowed first third := by
  rcases effect with quiet | opened
  · exact .inl (trans_of (Quiet grammar) aside.quiet quiet)
  · obtain ⟨email, clientSecret, token, isAllowed, emails, missing, created⟩ :=
      opened
    rw [aside.threepid] at missing created
    exact .inr ⟨email, clientSecret, token, isAllowed,
      aside.emails.trans emails, missing, created⟩

theorem mono {weaker : Address → ClientSecret → Prop}
    (effect : Effect grammar draws allowed first second)
    (imp : ∀ email clientSecret, allowed email clientSecret →
      weaker email clientSecret) :
    Effect grammar draws weaker first second := by
  rcases effect with quiet | opened
  · exact .inl quiet
  · obtain ⟨email, clientSecret, token, isAllowed, rest⟩ := opened
    exact .inr ⟨email, clientSecret, token, imp _ _ isAllowed, rest⟩

end Effect

section

variable (config : ClientConfig) (surroundings : Surroundings)

theorem ended_onThreepid {α : Type}
    (operation : Threepid.Service → Except Failure α × Threepid.Service)
    (services : Services) :
    ended (onThreepid operation services) =
      { services with threepid := (operation services.threepid).2 } := by
  unfold onThreepid onPart
  split
  · rename_i split
    simp only [Prod.mk.injEq] at split
    rw [ended, ← split.2]
  · rename_i split
    simp only [Prod.mk.injEq] at split
    rw [ended, ← split.2]

variable {grammar : Grammar} {services : Services}

theorem sending_effect {draws : Draws} {recipient : Address}
    {clientSecret : ClientSecret} {sendAttempt : Nat}
    {fixedToken : Option String} {threepid : Threepid.Service}
    {result : Except Failure ValidationChallenge}
    (issued : Issued services.threepid draws recipient clientSecret
      sendAttempt fixedToken result threepid.sessions) :
    Effect grammar draws
      (fun email secret => email = recipient ∧ secret = clientSecret) services
      { services with threepid } := by
  rcases issued.narrows_or_created with narrows | created
  · exact .inl ⟨.refl _ _, narrows⟩
  · obtain ⟨token, missing, isCreated⟩ := created
    exact .inr ⟨recipient, clientSecret, token, ⟨rfl, rfl⟩, .refl _ _,
      missing, isCreated⟩

section

variable (recipient : Address) (clientSecret : ClientSecret) (sendAttempt : Nat)
  (services : Services)

theorem sendValidationCodeEmail_effect :
    Effect config.settings.grammar surroundings.draws
      (fun email secret => email = recipient ∧ secret = clientSecret) services
      (ended (sendValidationCodeEmail config surroundings recipient
        clientSecret sendAttempt services)) := by
  obtain ⟨result, issued, _⟩ := sendValidationCodeEmail_sending
    config.threepid services.threepid surroundings.draws recipient
    clientSecret sendAttempt
  unfold sendValidationCodeEmail
  rw [ended_onThreepid]
  exact sending_effect issued

theorem sendValidationEmail_effect :
    Effect config.settings.grammar surroundings.draws
      (fun email secret => email = recipient ∧ secret = clientSecret) services
      (ended (sendValidationEmail config surroundings recipient clientSecret
        sendAttempt services)) := by
  obtain ⟨result, issued, _⟩ := sendValidationEmail_sending config.threepid
    services.threepid surroundings.draws recipient clientSecret sendAttempt
  unfold sendValidationEmail
  rw [ended_onThreepid]
  exact sending_effect issued

end

theorem keeps_tryValidateSession (sessionId : SessionId) (token : String) :
    Keeps (Quiet grammar)
      (tryValidateSession surroundings sessionId token) := by
  intro services
  unfold tryValidateSession
  rw [ended_onThreepid]
  exact ⟨.refl _ _, .tryValidateSession _ _ _ _⟩

theorem keeps_consumeValidSession (sessionId : SessionId)
    (clientSecret : ClientSecret) :
    Keeps (Quiet grammar) (consumeValidSession sessionId clientSecret) := by
  intro services
  unfold consumeValidSession
  rw [ended_onThreepid]
  exact ⟨.refl _ _, .consumeValidSession _ _ _⟩

theorem Aside.keepsQuiet {α : Type} {action : Route α}
    (keeps : Keeps (Aside grammar) action) : Keeps (Quiet grammar) action :=
  keeps.imp (fun _ _ aside => aside.quiet)

theorem Effect.bind {draws : Draws} {allowed : Address → ClientSecret → Prop}
    {α β : Type} {first : Route α} {next : α → Route β}
    (aside : Keeps (Aside grammar) first)
    (effect : ∀ value middle, first services = .ok value middle →
      Effect grammar draws allowed middle (ended (next value middle))) :
    Effect grammar draws allowed services
      (ended ((first >>= next) services)) := by
  have begins := aside services
  cases result : first services with
  | ok value middle =>
      rw [result] at begins
      rw [bind_of_ok next result]
      exact (effect value middle result).after begins
  | error error middle =>
      rw [result] at begins
      rw [bind_of_error next result]
      exact .inl begins.quiet

section

variable (body : EmailRequestToken) (services : Services)

theorem requestRegistrationToken_effect :
    Effect config.settings.grammar surroundings.draws (fun _ _ => True)
      services (ended (requestRegistrationTokenViaEmailRoute config
        surroundings body services)) :=
  .bind (keeps_registrationAddress config surroundings body)
    (fun value middle _ => (sendValidationCodeEmail_effect config surroundings
      value.1 value.2 body.sendAttempt middle).mono (fun _ _ _ => trivial))

theorem requestPasswordChangeToken_effect :
    Effect config.settings.grammar surroundings.draws (fun _ _ => True)
      services (ended (requestPasswordChangeTokenViaEmailRoute config
        surroundings body services)) := by
  refine .bind (keeps_parseClientSecret config _)
    (fun clientSecret middle _ => ?_)
  refine .bind (keeps_emailForPasswordReset config body.email)
    (fun email middle _ => ?_)
  rw [ended_bind_pure]
  exact (sendValidationCodeEmail_effect config surroundings email clientSecret
    body.sendAttempt middle).mono (fun _ _ _ => trivial)

theorem request3pidManagementToken_effect :
    Effect config.settings.grammar surroundings.draws (fun _ _ => True)
      services (ended (request3pidManagementTokenViaEmailRoute config
        surroundings body services)) :=
  .bind (keeps_managementAddress config body)
    (fun email middle _ => (sendValidationEmail_effect config surroundings
      email body.clientSecret body.sendAttempt middle).mono
        (fun _ _ _ => trivial))

end

theorem keeps_submitRegistrationToken (body : EmailSubmitToken) :
    Keeps (Quiet grammar)
      (submitRegistrationTokenViaEmailRoute config surroundings body) :=
  .bind (Aside.keepsQuiet (keeps_parseSessionId config _)) (fun sid =>
    .bind (keeps_tryValidateSession surroundings sid body.token)
      (fun _ => .pure _))

theorem keeps_submitPasswordChangeToken (body : EmailSubmitToken) :
    Keeps (Quiet grammar)
      (submitPasswordChangeTokenViaEmailRoute config surroundings body) :=
  .bind (Aside.keepsQuiet (keeps_parseClientSecret config _)) (fun _ =>
    keeps_submitRegistrationToken config surroundings body)

theorem keeps_threepidValidation (session : SessionId) (token : String) :
    Keeps (Quiet grammar) (threepidValidation surroundings session token) := by
  refine .tryCatch (keeps_tryValidateSession surroundings session token)
    (fun error => ?_)
  split
  · exact .throw _
  · exact .throw _

theorem keeps_finishLogin (client : String) (body : LoginRequest)
    (sid : SessionId) (token : String) (clientSecret : ClientSecret) :
    Keeps (Quiet config.settings.grammar)
      (finishLoginAfterEmailCode config surroundings client body sid token
        clientSecret) := by
  refine .bind (Aside.keepsQuiet (keeps_parseSessionId config sid))
    (fun sid => ?_)
  refine .bind (Aside.keepsQuiet (keeps_parseClientSecret config clientSecret))
    (fun clientSecret => ?_)
  refine .bind (keeps_tryValidateSession surroundings sid token) (fun _ => ?_)
  refine .bind (keeps_consumeValidSession sid clientSecret) (fun email => ?_)
  refine .bind (Aside.keepsQuiet (keeps_getLocalpartForEmail config email))
    (fun found => ?_)
  split
  · exact .throw _
  · split
    · exact .throw _
    · exact .bind (Aside.keepsQuiet (keeps_checkMayLogIn _)) (fun _ =>
        Aside.keepsQuiet (keeps_completeLogin config surroundings _ _ _ _))

variable {userId result : UserId} {password : String}

theorem passwordLogin_ok {accounts : Accounts}
    (passed : passwordLogin config accounts userId userId password =
      .ok result) : result = userId := by
  unfold passwordLogin at passed
  split at passed
  · cases passed
  · obtain ⟨found, isFound, rest⟩ := bind_eq_ok passed
    have sameUser : found.2 = userId := by
      unfold storedHash at isFound
      split at isFound
      · cases isFound
        rfl
      · split at isFound
        · cases isFound
          rfl
        · cases isFound
    simp only at rest
    split at rest
    · cases rest
    · split at rest
      · cases rest
        exact sameUser
      · cases rest

variable {after : Services}

theorem ldapLogin_ok
    (passed : ldapLogin config surroundings userId userId password services =
      .ok result after) : result = userId := by
  obtain ⟨found, middle, _, rest⟩ := bind_ok passed
  split at rest
  · obtain ⟨_, _, _, checked⟩ := bind_ok rest
    exact passwordLogin_ok config (liftExcept_ok checked).1
  · obtain ⟨_, _, _, rest⟩ := bind_ok rest
    obtain ⟨_, _, _, rest⟩ := bind_ok rest
    obtain ⟨_, _, _, rest⟩ := bind_ok rest
    cases rest
    rfl

theorem checkPassword_ok
    (passed : checkPassword config surroundings userId password services =
      .ok result after) : result = userId := by
  have localLogin : ∀ {state final : Services},
      (do let services ← get
          liftExcept (passwordLogin config services.accounts userId userId
            password) : Route UserId) state = .ok result final →
      result = userId := by
    intro state final checked
    obtain ⟨_, _, _, lifted⟩ := bind_ok checked
    exact passwordLogin_ok config (liftExcept_ok lifted).1
  unfold checkPassword at passed
  split at passed
  · rcases tryCatch_ok passed with viaLdap | caught
    · exact ldapLogin_ok config surroundings viaLdap
    · obtain ⟨error, middle, _, handled⟩ := caught
      split at handled
      · cases handled
      · exact localLogin handled
  · exact localLogin passed

theorem resolveLoginUserId_ok {identifier : String}
    (parsed : parseUserId config identifier = some userId)
    (resolved : resolveLoginUserId config userId services =
      .ok result after) : ∃ name, parseUserId config name = some result := by
  unfold resolveLoginUserId at resolved
  cases isLowercased : parseUserId config
      (config.settings.grammar.toLowercase userId.localpart) with
  | none =>
      rw [isLowercased] at resolved
      cases resolved
  | some lowercased =>
      rw [isLowercased] at resolved
      obtain ⟨_, _, _, chosen⟩ := bind_ok resolved
      cases chosen
      split
      · exact ⟨_, isLowercased⟩
      · exact ⟨_, parsed⟩

theorem handleLogin_ok {login : String}
    (passed : handleLogin config surroundings login password services =
      .ok userId after) :
    (∃ name, parseUserId config name = some userId) ∧
      config.settings.grammar.userIsLocal userId = true := by
  obtain ⟨localpart, _, _, parsing⟩ := bind_ok passed
  cases isParsed : parseUserId config localpart with
  | none =>
      rw [isParsed] at parsing
      cases parsing
  | some parsed =>
      rw [isParsed] at parsing
      obtain ⟨resolved, _, isResolved, checking⟩ := bind_ok parsing
      obtain ⟨_, _, refused, permitted⟩ := bind_ok checking
      obtain ⟨_, _, _, checked⟩ := bind_ok permitted
      have same := checkPassword_ok config surroundings checked
      rw [same]
      refine ⟨resolveLoginUserId_ok config isParsed isResolved, ?_⟩
      simpa using (refuseIf_ok refused).1

theorem require_ok {α : Type} {message : String} {value : Option α} {result : α}
    (required : require message value services = .ok result after) :
    value = some result ∧ after = services := by
  cases value with
  | none => cases required
  | some value =>
      cases required
      exact ⟨rfl, rfl⟩

theorem loginPassword_ok {body : LoginRequest} {sendAttempt : Nat}
    (passed : loginPassword config surroundings body services =
      .ok (userId, sendAttempt) after) :
    ∃ login password, body.sid = none ∧ body.token = none ∧
      body.login = some login ∧ body.password = some password ∧
      handleLogin config surroundings login password services =
        .ok userId after := by
  obtain ⟨_, _, refused, starting⟩ := bind_ok passed
  obtain ⟨started, same⟩ := refuseIf_ok refused
  rw [same] at starting
  obtain ⟨_, _, refused, available⟩ := bind_ok starting
  rw [(refuseIf_ok refused).2] at available
  obtain ⟨login, _, required, withLogin⟩ := bind_ok available
  obtain ⟨isLogin, same⟩ := require_ok required
  rw [same] at withLogin
  obtain ⟨password, _, required, withPassword⟩ := bind_ok withLogin
  obtain ⟨isPassword, same⟩ := require_ok required
  rw [same] at withPassword
  obtain ⟨_, _, required, withAttempt⟩ := bind_ok withPassword
  rw [(require_ok required).2] at withAttempt
  obtain ⟨passedUser, _, handled, answered⟩ := bind_ok withAttempt
  cases answered
  simp only [Bool.or_eq_false_iff, Option.isSome_eq_false_iff,
    Option.isNone_iff_eq_none] at started
  exact ⟨login, password, started.1, started.2, isLogin, isPassword, handled⟩

end

end ArcanaServer.Api
