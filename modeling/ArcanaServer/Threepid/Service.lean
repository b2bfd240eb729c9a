import ArcanaServer.Library.EntryTable
import ArcanaServer.Users.Accounts
import Mathlib.Algebra.GroupWithZero.Nat
import Mathlib.Logic.Function.Basic

namespace ArcanaServer.Threepid

abbrev Address := String
abbrev SessionId := String
abbrev ClientSecret := String

inductive Failure where
  | limitExceeded (message : String)
  | featureDisabled (message : String)
  | mailer (message : String)
  | rejected (message : String)
  | panic (message : String)
  deriving DecidableEq, Repr

instance randomNeZero : NeZero 10000 := ⟨by decide⟩

/-- What a call takes from outside: the time in nanoseconds, the random number
and session id it would draw, the verdict of the rate limiter and the error of
the mail transport, if there is one. -/
structure Draws where
  now : Nat
  random : Fin 10000
  sessionId : SessionId
  limited : Bool
  mailFails : Option String

structure ValidationToken where
  token : String
  issuedAt : Nat
  deriving DecidableEq, Repr

namespace ValidationToken

/-- One hour. -/
def maxTokenAge : Nat := 60 * 60 * 1000000000

def newRandom (draws : Draws) : ValidationToken where
  token := String.ofList ((Nat.toDigits 10 draws.random).leftpad 4 '0')
  issuedAt := draws.now

def newFixed (draws : Draws) (token : String) : ValidationToken where
  token := token
  issuedAt := draws.now

def isValid (token : ValidationToken) (now : Nat) : Bool :=
  token.issuedAt ≤ now && now - token.issuedAt < maxTokenAge

end ValidationToken

inductive ValidationState where
  | pending (token : ValidationToken)
  | validated
  deriving DecidableEq, Repr

structure ValidationSession where
  sessionId : SessionId
  clientSecret : ClientSecret
  email : Address
  validationState : ValidationState
  deriving DecidableEq, Repr

structure ValidationSessions where
  sessions : SessionId → Option ValidationSession
  clientSecrets : ClientSecret → Option SessionId

namespace ValidationSessions

def empty : ValidationSessions where
  sessions := fun _ => none
  clientSecrets := fun _ => none

def put (table : ValidationSessions) (sessionId : SessionId)
    (session : ValidationSession) : ValidationSessions :=
  { table with
    sessions := Function.update table.sessions sessionId (some session) }

def createSessionWithToken (table : ValidationSessions) (draws : Draws)
    (email : Address) (clientSecret : ClientSecret) (token : ValidationToken) :
    ValidationSession × ValidationSessions :=
  let session : ValidationSession :=
    { sessionId := draws.sessionId
      clientSecret
      email
      validationState := .pending token }
  (session, { sessions :=
                Function.update table.sessions session.sessionId (some session)
              clientSecrets := Function.update table.clientSecrets clientSecret
                  (some session.sessionId) })

/-- The session of a client secret, with the key it is stored under. -/
def getSessionByClientSecret (table : ValidationSessions)
    (clientSecret : ClientSecret) :
    Except Failure (Option (SessionId × ValidationSession)) :=
  match table.clientSecrets clientSecret with
  | none => .ok none
  | some sessionId =>
      match table.sessions sessionId with
      | some session => .ok (some (sessionId, session))
      | none => .error (.panic "session should exist with session id")

def removeSession (table : ValidationSessions) (sessionId : SessionId) :
    Except Failure ValidationSession × ValidationSessions :=
  match table.sessions sessionId with
  | none => (.error (.panic "session ID should exist"), table)
  | some session =>
      let sessions := Function.update table.sessions sessionId none
      match table.clientSecrets session.clientSecret with
      | none =>
          (.error
            (.panic "session should have an associated client secret"),
            { table with sessions })
      | some _ =>
          (.ok session, { sessions, clientSecrets :=
            Function.update table.clientSecrets session.clientSecret none })

end ValidationSessions

structure PlayReview where
  emails : List String
  code : String

/-- The settings that the service reads: whether there is a mail transport,
and the accounts of the store reviewers. -/
structure Config where
  mailer : Bool
  playReview : Option PlayReview

def eqIgnoreAsciiCase (left right : String) : Bool :=
  left.toList.map Char.toLower == right.toList.map Char.toLower

def Config.playReviewCodeFor (config : Config) (email : Address) :
    Option String :=
  match config.playReview with
  | none => none
  | some playReview =>
      if playReview.emails.any (fun configured =>
          eqIgnoreAsciiCase configured email) then
        some playReview.code
      else none

structure Service where
  sessions : ValidationSessions
  sendAttempts : ClientSecret × Address → Option Nat

structure ValidationChallenge where
  sessionId : SessionId
  token : Option String
  deriving DecidableEq, Repr

inductive MailBody where
  | link (sessionId : SessionId) (token : String)
  | code (token : String)
  deriving DecidableEq, Repr

def MailBody.token : MailBody → String
  | .link _ token => token
  | .code token => token

structure Mail where
  recipient : Address
  body : MailBody
  deriving DecidableEq, Repr

structure Sent where
  result : Except Failure SessionId
  mail : Option Mail

namespace Service

def empty : Service where
  sessions := .empty
  sendAttempts := fun _ => none

def makeToken (draws : Draws) : Option String → ValidationToken
  | some code => .newFixed draws code
  | none => .newRandom draws

def issueValidationSession (service : Service) (draws : Draws)
    (email : Address) (clientSecret : ClientSecret) (sendAttempt : Nat)
    (fixedToken : Option String) :
    Except Failure ValidationChallenge × Service :=
  match service.sessions.getSessionByClientSecret clientSecret with
  | .error failure => (.error failure, service)
  | .ok (some (key, session)) =>
      match session.validationState with
      | .validated =>
          (.ok { sessionId := session.sessionId, token := none }, service)
      | .pending _ =>
          if fixedToken.isNone && draws.limited then
            (.error (.limitExceeded
              "You're sending emails too fast, try again in a few minutes."),
              service)
          else
            let attempt := (session.clientSecret, session.email)
            let lastSendAttempt := (service.sendAttempts attempt).getD 0
            if sendAttempt ≤ lastSendAttempt then
              (.ok { sessionId := session.sessionId, token := none },
                { service with
                  sendAttempts := Function.update service.sendAttempts attempt
                    (some lastSendAttempt) })
            else
              let token := makeToken draws fixedToken
              (.ok { sessionId := session.sessionId
                     token := some token.token },
                { sendAttempts := Function.update service.sendAttempts attempt
                    (some sendAttempt)
                  sessions := service.sessions.put key
                    { session with validationState := .pending token } })
  | .ok none =>
      let token := makeToken draws fixedToken
      let (session, sessions) := service.sessions.createSessionWithToken draws
        email clientSecret token
      (.ok { sessionId := session.sessionId, token := some token.token },
        { service with sessions })

def deliver (config : Config) (draws : Draws) (sessionId : SessionId)
    (mail : Mail) : Sent :=
  if config.mailer then
    match draws.mailFails with
    | some reason => { result := .error (.mailer reason), mail := none }
    | none => { result := .ok sessionId, mail := some mail }
  else
    { result := .error (.featureDisabled
        "This homeserver is not configured to send email.")
      mail := none }

def sendValidationEmail (config : Config) (service : Service) (draws : Draws)
    (recipient : Address) (clientSecret : ClientSecret) (sendAttempt : Nat) :
    Sent × Service :=
  match service.issueValidationSession draws recipient clientSecret sendAttempt
      none with
  | (.error failure, service) =>
      ({ result := .error failure, mail := none }, service)
  | (.ok challenge, service) =>
      match challenge.token with
      | none => ({ result := .ok challenge.sessionId, mail := none }, service)
      | some token =>
          (deliver config draws challenge.sessionId
            { recipient, body := .link challenge.sessionId token }, service)

def sendValidationCodeEmail (config : Config) (service : Service)
    (draws : Draws) (recipient : Address) (clientSecret : ClientSecret)
    (sendAttempt : Nat) : Sent × Service :=
  let playReviewCode := config.playReviewCodeFor recipient
  match service.issueValidationSession draws recipient clientSecret sendAttempt
      playReviewCode with
  | (.error failure, service) =>
      ({ result := .error failure, mail := none }, service)
  | (.ok challenge, service) =>
      match challenge.token with
      | none => ({ result := .ok challenge.sessionId, mail := none }, service)
      | some token =>
          if playReviewCode.isSome then
            ({ result := .ok challenge.sessionId, mail := none }, service)
          else
            (deliver config draws challenge.sessionId
              { recipient, body := .code token }, service)

def tryValidateSession (service : Service) (draws : Draws)
    (sessionId : SessionId) (suppliedToken : String) :
    Except Failure Unit × Service :=
  match service.sessions.sessions sessionId with
  | none => (.error (.rejected "Validation session does not exist"), service)
  | some session =>
      match session.validationState with
      | .validated => (.ok (), service)
      | .pending token =>
          if token.token ≠ suppliedToken ∨ ¬ token.isValid draws.now then
            (.error (.rejected
              "Validation token is invalid or expired, please request a new one"),
              service)
          else
            (.ok (), { service with
              sessions := service.sessions.put sessionId
                { session with validationState := .validated } })

def consumeValidSession (service : Service) (sessionId : SessionId)
    (clientSecret : ClientSecret) : Except Failure Address × Service :=
  match service.sessions.sessions sessionId with
  | none => (.error (.rejected "Validation session does not exist"), service)
  | some session =>
      if session.clientSecret = clientSecret ∧
          session.validationState = .validated then
        let (removed, sessions) := service.sessions.removeSession sessionId
        (removed.map ValidationSession.email, { service with sessions })
      else
        (.error (.rejected
          "This email address has not been validated. Did you use the link that was sent to you?"),
          service)

end Service

open Library Users

abbrev Localpart := String

/-- The addresses of the accounts: the address of each localpart as it was
stored, and the localpart of each normalized address. -/
structure EmailTables where
  localpartEmail : AList (fun _ : Localpart => String)
  emailLocalpart : String → Option Localpart

namespace EmailTables

section

variable (grammar : Grammar) (tables : EmailTables)

def getEmailForLocalpart (localpart : Localpart) : Option Address :=
  match tables.localpartEmail.lookup localpart with
  | none => none
  | some stored =>
      if grammar.validAddress stored then some stored else none

def findLocalpartsForNormalizedEmail (normalizedEmail : String) :
    List Localpart :=
  ((tables.localpartEmail.entries.filter (fun row =>
    grammar.normalizeEmail row.2 = normalizedEmail)).take 2).map Sigma.fst

/-- A match that the table of addresses lacks is written to it. -/
def getLocalpartForEmail (email : String) : Option Localpart × EmailTables :=
  let normalizedEmail := grammar.normalizeEmail email
  match tables.emailLocalpart normalizedEmail with
  | some localpart => (some localpart, tables)
  | none =>
      match tables.findLocalpartsForNormalizedEmail grammar normalizedEmail with
      | [localpart] =>
          (some localpart, { tables with
            emailLocalpart := Function.update tables.emailLocalpart
              normalizedEmail (some localpart) })
      | _ => (none, tables)

def disassociateLocalpartEmail (localpart : Localpart) :
    Option Address × EmailTables :=
  match tables.getEmailForLocalpart grammar localpart with
  | none => (none, tables)
  | some email => (some email, {
      localpartEmail := tables.localpartEmail.erase localpart
      emailLocalpart := Function.update tables.emailLocalpart
        (grammar.normalizeEmail email) none })

def insertEmail (localpart : Localpart) (normalizedEmail : String) :
    EmailTables where
  localpartEmail := tables.localpartEmail.insert localpart normalizedEmail
  emailLocalpart := Function.update tables.emailLocalpart normalizedEmail
    (some localpart)

def associateLocalpartEmail (localpart : Localpart) (email : String) :
    Except Error Unit × EmailTables :=
  let normalizedEmail := grammar.normalizeEmail email
  let found := tables.getLocalpartForEmail grammar normalizedEmail
  match found.1 with
  | some existingLocalpart =>
      if existingLocalpart ≠ localpart then
        (.error (.request .threepidInUse
          "This email address is already in use."), found.2)
      else (.ok (), found.2)
  | none =>
      let matchingLocalparts :=
        found.2.findLocalpartsForNormalizedEmail grammar normalizedEmail
      if matchingLocalparts.any (fun existing => existing ≠ localpart) then
        (.error (.request .threepidInUse
          "This email address is already in use."), found.2)
      else
        let removed := found.2.disassociateLocalpartEmail grammar localpart
        (.ok (), removed.2.insertEmail localpart normalizedEmail)

end

def Distinct (grammar : Grammar) (tables : EmailTables) : Prop :=
  ∀ left right stored other, tables.localpartEmail.lookup left = some stored →
    tables.localpartEmail.lookup right = some other →
    grammar.normalizeEmail stored = grammar.normalizeEmail other →
    left = right

structure OneToOne (grammar : Grammar) (tables : EmailTables) : Prop where
  distinct : tables.Distinct grammar
  agrees : ∀ normalized localpart,
    tables.emailLocalpart normalized = some localpart →
    ∃ stored, tables.localpartEmail.lookup localpart = some stored ∧
      grammar.normalizeEmail stored = normalized

theorem getEmailForLocalpart_eq_some {grammar : Grammar}
    {tables : EmailTables} {localpart : Localpart} {email : Address}
    (found : tables.getEmailForLocalpart grammar localpart = some email) :
    tables.localpartEmail.lookup localpart = some email := by
  unfold getEmailForLocalpart at found
  split at found
  · cases found
  · rename_i stored isStored
    split at found
    · cases found
      exact isStored
    · cases found

section

variable {grammar : Grammar} {tables : EmailTables}

variable {localpart : Localpart}

theorem mem_findLocalparts {normalized : String} (found : localpart ∈
      tables.findLocalpartsForNormalizedEmail grammar normalized) :
    ∃ stored, tables.localpartEmail.lookup localpart = some stored ∧
      grammar.normalizeEmail stored = normalized := by
  obtain ⟨row, member, isLocalpart⟩ := List.mem_map.mp found
  obtain ⟨listed, isNormalized⟩ :=
    List.mem_filter.mp (List.mem_of_mem_take member)
  refine ⟨row.2, ?_, of_decide_eq_true isNormalized⟩
  rw [← isLocalpart]
  exact AList.mem_lookup_iff.mpr listed

theorem getLocalpartForEmail_rows (email : String) :
    (tables.getLocalpartForEmail grammar email).2.localpartEmail =
      tables.localpartEmail := by
  unfold getLocalpartForEmail
  simp only
  split
  · rfl
  · split
    · rfl
    · rfl

theorem OneToOne.getLocalpartForEmail (oneToOne : tables.OneToOne grammar)
    (email : String) :
    (tables.getLocalpartForEmail grammar email).2.OneToOne grammar := by
  unfold EmailTables.getLocalpartForEmail
  simp only
  split
  · exact oneToOne
  · split
    · rename_i localpart matching
      refine ⟨oneToOne.distinct, ?_⟩
      intro normalized other found
      rcases update_eq_some found with old | new
      · exact oneToOne.agrees normalized other old
      · have listed : localpart ∈
            tables.findLocalpartsForNormalizedEmail grammar
              (grammar.normalizeEmail email) := by
          rw [matching]
          exact List.mem_singleton_self localpart
        rw [new.1, new.2]
        exact mem_findLocalparts listed
    · exact oneToOne

theorem getLocalpartForEmail_stored (oneToOne : tables.OneToOne grammar)
    {email : String} (found : (tables.getLocalpartForEmail grammar email).1 =
      some localpart) :
    ∃ stored, tables.localpartEmail.lookup localpart = some stored ∧
      grammar.normalizeEmail stored = grammar.normalizeEmail email := by
  unfold EmailTables.getLocalpartForEmail at found
  simp only at found
  split at found
  · rename_i known isKnown
    cases found
    exact oneToOne.agrees _ _ isKnown
  · split at found
    · rename_i matching isMatching
      cases found
      apply mem_findLocalparts
      rw [isMatching]
      exact List.mem_singleton_self _
    · cases found

theorem getLocalpartForEmail_unique (oneToOne : tables.OneToOne grammar)
    {email : Address} {owner : Localpart}
    (owns : tables.localpartEmail.lookup owner = some email)
    (found : (tables.getLocalpartForEmail grammar email).1 =
      some localpart) : localpart = owner := by
  obtain ⟨stored, isStored, same⟩ := getLocalpartForEmail_stored oneToOne found
  exact oneToOne.distinct localpart owner stored email isStored owns same

end

end EmailTables

inductive EmailRequirement where
  | required
  | optional
  | unavailable
  deriving DecidableEq, Repr

def EmailRequirement.mayChange : EmailRequirement → Bool
  | .required => true
  | .optional => true
  | .unavailable => false

structure Smtp where
  requireEmailForRegistration : Bool
  requireEmailForTokenRegistration : Bool

def emailRequirement : Option Smtp → EmailRequirement
  | none => .unavailable
  | some smtp =>
      if smtp.requireEmailForRegistration ||
          smtp.requireEmailForTokenRegistration then .required
      else .optional

open Library Users EntryTable

/-! The addresses of the accounts over runs of the three operations. -/

inductive EmailCall where
  | associate (localpart : Localpart) (email : String)
  | disassociate (localpart : Localpart)
  | lookup (email : String)
  deriving DecidableEq, Repr

inductive EmailAnswer where
  | associated (result : Except Error Unit)
  | disassociated (email : Option Address)
  | found (localpart : Option Localpart)

namespace EmailTables

variable {grammar : Grammar} {tables : EmailTables}

def step (grammar : Grammar) (tables : EmailTables) :
    EmailCall → EmailTables × EmailAnswer
  | .associate localpart email =>
      let (result, tables) :=
        tables.associateLocalpartEmail grammar localpart email
      (tables, .associated result)
  | .disassociate localpart =>
      let (email, tables) := tables.disassociateLocalpartEmail grammar localpart
      (tables, .disassociated email)
  | .lookup email =>
      let (localpart, tables) := tables.getLocalpartForEmail grammar email
      (tables, .found localpart)

def Owns (grammar : Grammar) (tables : EmailTables) (localpart : Localpart)
    (email : String) : Prop :=
  ∃ stored, tables.localpartEmail.lookup localpart = some stored ∧
    grammar.normalizeEmail stored = grammar.normalizeEmail email

structure Bijective (grammar : Grammar) (tables : EmailTables) : Prop where
  distinct : tables.Distinct grammar
  answers : ∀ email localpart,
    (tables.getLocalpartForEmail grammar email).1 = some localpart ↔
      tables.Owns grammar localpart email

def Replaceable (grammar : Grammar) (tables : EmailTables) : EmailCall → Prop
  | .associate localpart email =>
      tables.findLocalpartsForNormalizedEmail grammar
          (grammar.normalizeEmail email) = [] →
        ∀ stored ∈ tables.localpartEmail.lookup localpart,
          grammar.validAddress stored = true
  | .disassociate _ | .lookup _ => True

instance (grammar : Grammar) (tables : EmailTables) :
    DecidablePred (tables.Replaceable grammar)
  | .associate localpart _ => inferInstanceAs (Decidable
      (_ = [] → ∀ stored ∈ tables.localpartEmail.lookup localpart, _ = true))
  | .disassociate _ | .lookup _ => isTrue trivial

section

variable {localpart : Localpart} {stored normalized : String}

theorem mem_matching (owns : tables.localpartEmail.lookup localpart =
      some stored)
    (same : grammar.normalizeEmail stored = normalized) :
    ⟨localpart, stored⟩ ∈ tables.localpartEmail.entries.filter (fun row =>
      grammar.normalizeEmail row.2 = normalized) := by
  apply List.mem_filter.mpr
  exact ⟨lookup_eq_some.mp owns, decide_eq_true same⟩

theorem findLocalparts_eq_nil (unowned : ∀ owner stored,
      tables.localpartEmail.lookup owner = some stored →
      grammar.normalizeEmail stored ≠ normalized) :
    tables.findLocalpartsForNormalizedEmail grammar normalized = [] := by
  unfold findLocalpartsForNormalizedEmail
  rw [List.filter_eq_nil_iff.mpr]
  · rfl
  · intro row listed same
    exact unowned row.1 row.2 (lookup_eq_some.mpr listed)
      (of_decide_eq_true same)

theorem Distinct.findLocalparts (distinct : tables.Distinct grammar)
    (owns : tables.localpartEmail.lookup localpart = some stored)
    (same : grammar.normalizeEmail stored = normalized) :
    tables.findLocalpartsForNormalizedEmail grammar normalized =
      [localpart] := by
  have single : tables.localpartEmail.entries.filter (fun row =>
      grammar.normalizeEmail row.2 = normalized) = [⟨localpart, stored⟩] := by
    have nodup := tables.localpartEmail.nodupKeys.nodup.filter
      (fun row => decide (grammar.normalizeEmail row.2 = normalized))
    by_contra differs
    rcases (nodup.ne_singleton_iff _).mp differs with empty | another
    · have member := mem_matching owns same
      rw [empty] at member
      cases member
    · obtain ⟨row, member, differs⟩ := another
      obtain ⟨listed, isNormalized⟩ := List.mem_filter.mp member
      have rowOwns := lookup_eq_some.mpr listed
      have sameKey : row.1 = localpart :=
        distinct row.1 localpart row.2 stored rowOwns owns
          ((of_decide_eq_true isNormalized).trans same.symm)
      have sameValue : row.2 = stored := by
        rw [sameKey, owns] at rowOwns
        exact (Option.some.inj rowOwns).symm
      exact differs (Sigma.ext sameKey (heq_of_eq sameValue))
  unfold findLocalpartsForNormalizedEmail
  rw [single]
  rfl

end

/-- The reverse table and the scan find an address exactly where it is
stored. -/
theorem OneToOne.bijective (oneToOne : tables.OneToOne grammar) :
    tables.Bijective grammar where
  distinct := oneToOne.distinct
  answers := by
    intro email localpart
    constructor
    · exact getLocalpartForEmail_stored oneToOne
    · rintro ⟨stored, owns, same⟩
      unfold EmailTables.getLocalpartForEmail
      simp only
      split
      next known isKnown =>
        obtain ⟨other, knownOwns, knownSame⟩ := oneToOne.agrees _ known isKnown
        exact congrArg some (oneToOne.distinct known localpart other stored
          knownOwns owns (knownSame.trans same.symm))
      · rw [Distinct.findLocalparts oneToOne.distinct owns same]

variable {localpart : Localpart}

theorem Distinct.insertEmail (distinct : tables.Distinct grammar)
    {normalized : String}
    (isNormalized : grammar.normalizeEmail normalized = normalized)
    (free : ∀ owner stored, tables.localpartEmail.lookup owner = some stored →
      grammar.normalizeEmail stored = normalized → owner = localpart) :
    (tables.insertEmail localpart normalized).Distinct grammar := by
  intro left right stored other leftOwns rightOwns same
  simp only [EmailTables.insertEmail, lookup_insert] at leftOwns rightOwns
  split at leftOwns <;> split at rightOwns
  next isLeft isRight => exact isLeft.trans isRight.symm
  next isLeft _ =>
    cases leftOwns
    exact isLeft.trans
      (free right other rightOwns (same.symm.trans isNormalized)).symm
  next isRight =>
    cases rightOwns
    exact (free left stored leftOwns (same.trans isNormalized)).trans
      isRight.symm
  · exact distinct left right stored other leftOwns rightOwns same

theorem OneToOne.insertEmail (oneToOne : tables.OneToOne grammar)
    {normalized : String}
    (isNormalized : grammar.normalizeEmail normalized = normalized)
    (absent : tables.localpartEmail.lookup localpart = none)
    (unowned : ∀ owner stored,
      tables.localpartEmail.lookup owner = some stored →
      grammar.normalizeEmail stored ≠ normalized) :
    (tables.insertEmail localpart normalized).OneToOne grammar where
  distinct := Distinct.insertEmail oneToOne.distinct isNormalized
    (fun owner stored owns same => absurd same (unowned owner stored owns))
  agrees := by
    intro key owner found
    simp only [EmailTables.insertEmail, lookup_insert]
    rcases update_eq_some found with old | new
    · obtain ⟨stored, owns, same⟩ := oneToOne.agrees key owner old
      have differs : owner ≠ localpart := by
        intro here
        rw [here, absent] at owns
        cases owns
      rw [if_neg differs]
      exact ⟨stored, owns, same⟩
    · rw [if_pos new.2, new.1]
      exact ⟨normalized, rfl, isNormalized⟩

theorem lookup_disassociate {owner : Localpart} {stored : String}
    (owns : (tables.disassociateLocalpartEmail grammar
      localpart).2.localpartEmail.lookup owner = some stored) :
    tables.localpartEmail.lookup owner = some stored := by
  unfold disassociateLocalpartEmail at owns
  split at owns
  · exact owns
  · simp only [lookup_erase] at owns
    split at owns
    · cases owns
    · exact owns

theorem lookup_disassociate_of_ne {owner : Localpart}
    (differs : owner ≠ localpart) : (tables.disassociateLocalpartEmail grammar
      localpart).2.localpartEmail.lookup owner =
      tables.localpartEmail.lookup owner := by
  unfold disassociateLocalpartEmail
  split
  · rfl
  · exact AList.lookup_erase_ne differs

theorem emailLocalpart_disassociate (localpart : Localpart)
    (normalized : String) : (tables.disassociateLocalpartEmail grammar
        localpart).2.emailLocalpart normalized =
      tables.emailLocalpart normalized ∨
    (tables.disassociateLocalpartEmail grammar
        localpart).2.emailLocalpart normalized = none ∧
      ∃ stored, tables.localpartEmail.lookup localpart = some stored ∧
        grammar.normalizeEmail stored = normalized := by
  unfold disassociateLocalpartEmail
  split
  · exact .inl rfl
  next email isEmail =>
    by_cases here : normalized = grammar.normalizeEmail email
    · right
      rw [here]
      exact ⟨Function.update_self _ _ _, email,
        getEmailForLocalpart_eq_some isEmail, rfl⟩
    · exact .inl (Function.update_of_ne here _ _)

theorem Distinct.disassociate (distinct : tables.Distinct grammar)
    (localpart : Localpart) :
    (tables.disassociateLocalpartEmail grammar localpart).2.Distinct grammar :=
  fun left right stored other leftOwns rightOwns same =>
    distinct left right stored other (lookup_disassociate leftOwns)
      (lookup_disassociate rightOwns) same

theorem OneToOne.disassociate (oneToOne : tables.OneToOne grammar)
    (localpart : Localpart) :
    (tables.disassociateLocalpartEmail grammar localpart).2.OneToOne
      grammar where
  distinct := Distinct.disassociate oneToOne.distinct localpart
  agrees := by
    intro key owner found
    unfold disassociateLocalpartEmail at found ⊢
    split at found
    · exact oneToOne.agrees key owner found
    next email isEmail =>
      have owns := getEmailForLocalpart_eq_some isEmail
      have differs : key ≠ grammar.normalizeEmail email := by
        intro here
        simp [here] at found
      obtain ⟨stored, ownerOwns, same⟩ :=
        oneToOne.agrees key owner (update_none_eq_some found)
      refine ⟨stored, ?_, same⟩
      have other : owner ≠ localpart := by
        intro here
        rw [here, owns] at ownerOwns
        cases ownerOwns
        exact differs same.symm
      simp only [lookup_erase, if_neg other]
      exact ownerOwns

theorem lookup_disassociate_self
    (readable : ∀ stored ∈ tables.localpartEmail.lookup localpart,
      grammar.validAddress stored = true) :
    (tables.disassociateLocalpartEmail grammar
      localpart).2.localpartEmail.lookup localpart = none := by
  unfold disassociateLocalpartEmail getEmailForLocalpart
  cases isStored : tables.localpartEmail.lookup localpart with
  | none => exact isStored
  | some stored =>
      simp only [readable stored isStored, if_true]
      exact AList.lookup_erase _ _

section

variable (normalizes : ∀ email, grammar.normalizeEmail
  (grammar.normalizeEmail email) = grammar.normalizeEmail email)

include normalizes

theorem OneToOne.unowned (oneToOne : tables.OneToOne grammar)
    {email : String} (noOwner : (tables.getLocalpartForEmail grammar
      (grammar.normalizeEmail email)).1 = none) (owner : Localpart)
    (stored : String)
    (owns : tables.localpartEmail.lookup owner = some stored) :
    grammar.normalizeEmail stored ≠ grammar.normalizeEmail email := by
  intro same
  have found := (oneToOne.bijective.answers (grammar.normalizeEmail email)
    owner).mpr ⟨stored, owns, same.trans (normalizes email).symm⟩
  rw [noOwner] at found
  cases found

theorem OneToOne.associate (oneToOne : tables.OneToOne grammar)
    {localpart : Localpart} {email : String}
    (replaceable : tables.Replaceable grammar (.associate localpart email)) :
    (tables.associateLocalpartEmail grammar localpart email).2.OneToOne
      grammar := by
  have searched := oneToOne.getLocalpartForEmail (grammar.normalizeEmail email)
  have rows := @getLocalpartForEmail_rows grammar tables
    (grammar.normalizeEmail email)
  unfold associateLocalpartEmail
  simp only
  split
  · split
    · exact searched
    · exact searched
  next noOwner =>
    split
    · exact searched
    · have unowned := oneToOne.unowned normalizes noOwner
      have readable := replaceable (findLocalparts_eq_nil unowned)
      rw [← rows] at unowned readable
      apply (searched.disassociate localpart).insertEmail (normalizes email)
        (lookup_disassociate_self readable)
      intro owner stored owns
      exact unowned owner stored (lookup_disassociate owns)

theorem OneToOne.step (oneToOne : tables.OneToOne grammar)
    (call : EmailCall) (replaceable : tables.Replaceable grammar call) :
    (tables.step grammar call).1.OneToOne grammar := by
  cases call with
  | associate localpart email =>
      exact oneToOne.associate normalizes replaceable
  | disassociate localpart => exact oneToOne.disassociate localpart
  | lookup email => exact oneToOne.getLocalpartForEmail email

/-- Accounts keep their addresses apart, and every address leads to its
account, while no address is replaced that cannot be read. -/
theorem bijective_of_replaceable {start tables : EmailTables}
    (oneToOne : start.OneToOne grammar)
    {history : List (Entry EmailTables EmailCall EmailAnswer)}
    (reached : Reaches (step grammar) start history tables)
    (replaceable : Always (fun _ entry =>
      entry.before.Replaceable grammar entry.input) history) :
    tables.Bijective grammar := by
  refine OneToOne.bijective ?_
  exact reached.invariant (fun _ tables => tables.OneToOne grammar) oneToOne
    (fun _ _ call oneToOne replaceable =>
      oneToOne.step normalizes call replaceable) replaceable

end

def noEmails : EmailTables where
  localpartEmail := ∅
  emailLocalpart := fun _ => none

theorem noEmails_oneToOne : noEmails.OneToOne grammar where
  distinct := fun _ _ _ _ owns => by cases owns
  agrees := fun _ _ found => by cases found

/-! An address may have at most 64 bytes before the sign, and some letters take
more of them in lower case. -/

def lowerChar (char : Char) : Char :=
  if char = 'Ⱥ' then 'ⱥ' else char

def mailGrammar : Grammar where
  serverName := "here"
  validLocalpart := fun _ => true
  validServerName := fun _ => true
  validAddress := fun text =>
    let user := text.toList.takeWhile (fun char => char ≠ '@')
    let domain := text.toList.dropWhile (fun char => char ≠ '@')
    let bytes := (user.map Char.utf8Size).sum
    decide (0 < bytes ∧ bytes ≤ 64 ∧ 1 < domain.length)
  validSessionId := fun _ => true
  validClientSecret := fun _ => true
  trim := fun text => text
  toLowercase := fun text => String.ofList (text.toList.map lowerChar)

theorem lowerChar_lowerChar (char : Char) :
    lowerChar (lowerChar char) = lowerChar char := by
  unfold lowerChar
  split <;> rfl

theorem mailGrammar_normalizes (email : String) :
    mailGrammar.normalizeEmail (mailGrammar.normalizeEmail email) =
      mailGrammar.normalizeEmail email := by
  change String.ofList ((String.ofList (email.toList.map
    lowerChar)).toList.map lowerChar) = _
  rw [String.toList_ofList, List.map_map]
  exact congrArg String.ofList (List.map_congr_left
    (fun char _ => lowerChar_lowerChar char))

def longEmail : String :=
  String.ofList (List.replicate 32 'Ⱥ') ++ "@example.org"

def replacedCalls : List EmailCall :=
  [.associate "alice" "Ⱥ@example.org", .lookup "ⱥ@example.org",
    .associate "bob" "Ⱥ@example.org", .associate "alice" "alice@example.org",
    .disassociate "carol", .associate "bob" "Ⱥ@example.org"]

theorem replaced_bijective :
    (run (step mailGrammar) noEmails replacedCalls).2.Bijective mailGrammar :=
  bijective_of_replaceable mailGrammar_normalizes noEmails_oneToOne
    (reaches_run _ _ _) (Always.of_forall_mem (by decide +kernel))

/-- The address is stored in lower case, where it does not parse any more: the
new address does not replace it. -/
theorem unreadable_stays : mailGrammar.validAddress longEmail = true ∧
      ¬ (run (step mailGrammar) noEmails
        [.associate "alice" longEmail,
          .associate "alice" "alice@example.org"]).2.Bijective
        mailGrammar := by
  refine ⟨by decide +kernel, fun bijective => ?_⟩
  obtain ⟨stored, owns, same⟩ :=
    (bijective.answers longEmail "alice").mp (by decide +kernel)
  have isNew : stored = "alice@example.org" := by
    have found : AList.lookup "alice" (run (step mailGrammar) noEmails
        [.associate "alice" longEmail,
          .associate "alice" "alice@example.org"]).2.localpartEmail =
        some "alice@example.org" := by decide +kernel
    exact Option.some.inj (owns.symm.trans found)
  subst isNew
  revert same
  decide +kernel

end EmailTables

end ArcanaServer.Threepid
