import ArcanaServer.Threepid.Delivery

namespace ArcanaServer.Threepid

/-- Every later session is an earlier one, with the same client secret and
address. -/
structure Narrows (before after : ValidationSessions) : Prop where
  sessions : ∀ key session, after.sessions key = some session →
    ∃ old, before.sessions key = some old ∧
      old.clientSecret = session.clientSecret ∧ old.email = session.email
  clientSecrets : ∀ clientSecret key,
    after.clientSecrets clientSecret = some key →
      before.clientSecrets clientSecret = some key

namespace Narrows

variable {first second third : ValidationSessions}

theorem refl (table : ValidationSessions) : Narrows table table :=
  ⟨fun _ session found => ⟨session, found, rfl, rfl⟩, fun _ _ found => found⟩

theorem trans (left : Narrows first second) (right : Narrows second third) :
    Narrows first third := by
  constructor
  · intro key session found
    obtain ⟨middle, isMiddle, secret, email⟩ := right.sessions key session found
    obtain ⟨old, isOld, secret', email'⟩ := left.sessions key middle isMiddle
    exact ⟨old, isOld, secret'.trans secret, email'.trans email⟩
  · intro clientSecret key found
    exact left.clientSecrets clientSecret key
      (right.clientSecrets clientSecret key found)

theorem put {table : ValidationSessions} {key : SessionId}
    {session changed : ValidationSession}
    (found : table.sessions key = some session)
    (secret : session.clientSecret = changed.clientSecret)
    (email : session.email = changed.email) :
    Narrows table (table.put key changed) := by
  constructor
  · intro other session' found'
    rcases Library.update_eq_some found' with old | new
    · exact ⟨session', old, rfl, rfl⟩
    · rw [new.1, new.2]
      exact ⟨session, found, secret, email⟩
  · intro clientSecret other found'
    exact found'

theorem removeSession (table : ValidationSessions) (sessionId : SessionId) :
    Narrows table (table.removeSession sessionId).2 := by
  constructor
  · intro key session found
    exact ⟨session, ValidationSessions.removeSession_subset found, rfl, rfl⟩
  · intro clientSecret key found
    unfold ValidationSessions.removeSession at found
    split at found
    · exact found
    · simp only at found
      split at found
      · exact found
      · exact Library.update_none_eq_some found

theorem tryValidateSession (service : Service) (draws : Draws)
    (sessionId : SessionId) (suppliedToken : String) :
    Narrows service.sessions
      (service.tryValidateSession draws sessionId suppliedToken).2.sessions := by
  unfold Service.tryValidateSession
  split
  · exact refl _
  · rename_i session found
    split
    · exact refl _
    · split
      · exact refl _
      · exact put found rfl rfl

theorem consumeValidSession (service : Service) (sessionId : SessionId)
    (clientSecret : ClientSecret) :
    Narrows service.sessions
      (service.consumeValidSession sessionId clientSecret).2.sessions := by
  unfold Service.consumeValidSession
  split
  · exact refl _
  · split
    · exact removeSession _ _
    · exact refl _

end Narrows

theorem Issued.narrows_or_created {service : Service} {draws : Draws}
    {email : Address} {clientSecret : ClientSecret} {sendAttempt : Nat}
    {fixedToken : Option String}
    {result : Except Failure ValidationChallenge} {after : ValidationSessions}
    (issued : Issued service draws email clientSecret sendAttempt fixedToken
      result after) :
    Narrows service.sessions after ∨
      ∃ token, service.sessions.clientSecrets clientSecret = none ∧
        after = (service.sessions.createSessionWithToken draws email
          clientSecret token).2 := by
  cases issued with
  | nothing _ => exact .inl (Narrows.refl _)
  | replaced _ found =>
      exact .inl (Narrows.put
        (ValidationSessions.getSessionByClientSecret_ok found) rfl rfl)
  | created _ missing => exact .inr ⟨_, missing, rfl⟩

/-- A client secret names the session that holds it, and no other. -/
def ValidationSessions.Inverse (table : ValidationSessions) : Prop :=
  ∀ clientSecret sessionId, table.clientSecrets clientSecret = some sessionId ↔
      (table.sessions sessionId).map ValidationSession.clientSecret =
        some clientSecret

namespace ValidationSessions.Inverse

variable {table : ValidationSessions} {session : ValidationSession}
  {sessionId : SessionId} {clientSecret : ClientSecret}

theorem put (inverse : table.Inverse) {changed : ValidationSession}
    (found : table.sessions sessionId = some session)
    (secret : changed.clientSecret = session.clientSecret) :
    (table.put sessionId changed).Inverse := by
  intro other key
  refine (inverse other key).trans (Eq.congr_left ?_)
  by_cases same : key = sessionId
  · subst same
    simp [ValidationSessions.put, found, secret]
  · simp [ValidationSessions.put, same]

theorem create (inverse : table.Inverse) (draws : Draws) (email : Address)
    (token : ValidationToken) (missing : table.clientSecrets clientSecret = none)
    (fresh : table.sessions draws.sessionId = none) :
    (table.createSessionWithToken draws email clientSecret token).2.Inverse := by
  intro other key
  have old := inverse other key
  unfold createSessionWithToken
  by_cases secret : other = clientSecret <;> by_cases same : key = draws.sessionId
  · simp [secret, same]
  · rw [secret, missing] at old
    simpa [secret, same, Ne.symm same] using old
  · rw [same, fresh] at old
    simpa [secret, same, Ne.symm secret] using old
  · simpa [secret, same] using old

theorem getSessionByClientSecret (inverse : table.Inverse)
    (clientSecret : ClientSecret) :
    ∃ found, table.getSessionByClientSecret clientSecret = .ok found := by
  unfold ValidationSessions.getSessionByClientSecret
  cases indexed : table.clientSecrets clientSecret with
  | none => exact ⟨none, rfl⟩
  | some key =>
      obtain ⟨session, found, _⟩ :=
        Option.map_eq_some_iff.mp ((inverse clientSecret key).mp indexed)
      simp [found]

theorem removeSession (inverse : table.Inverse)
    (found : table.sessions sessionId = some session) :
    (table.removeSession sessionId).1 = .ok session ∧
      (table.removeSession sessionId).2.Inverse := by
  have indexed : table.clientSecrets session.clientSecret = some sessionId :=
    (inverse _ _).mpr (by rw [found]; rfl)
  simp only [ValidationSessions.removeSession, found, indexed, true_and]
  intro other key
  have old := inverse other key
  by_cases secret : other = session.clientSecret <;>
    by_cases same : key = sessionId
  · simp [secret, same]
  · rw [secret, indexed] at old
    simpa [secret, same, Ne.symm same] using old
  · rw [same, found] at old
    simpa [secret, same, Ne.symm secret] using old
  · simpa [secret, same] using old

end ValidationSessions.Inverse

/-- The calls that take the lock on the sessions. -/
inductive SessionCall where
  | issueValidationSession (draws : Draws) (email : Address)
      (clientSecret : ClientSecret) (sendAttempt : Nat)
      (fixedToken : Option String)
  | tryValidateSession (draws : Draws) (sessionId : SessionId)
      (suppliedToken : String)
  | consumeValidSession (sessionId : SessionId) (clientSecret : ClientSecret)

def sessionStep (service : Service) :
    SessionCall → Service × Except Failure Unit
  | .issueValidationSession draws email clientSecret sendAttempt fixedToken =>
      let (result, service) := service.issueValidationSession draws email
        clientSecret sendAttempt fixedToken
      (service, result.map fun _ => ())
  | .tryValidateSession draws sessionId suppliedToken =>
      (service.tryValidateSession draws sessionId suppliedToken).swap
  | .consumeValidSession sessionId clientSecret =>
      let (result, service) :=
        service.consumeValidSession sessionId clientSecret
      (service, result.map fun _ => ())

open Library List

abbrev SessionHistory := List (Entry Service SessionCall (Except Failure Unit))

/-- A random session id that is drawn is not in use. -/
def DrawsUnused (_ : SessionHistory)
    (entry : Entry Service SessionCall (Except Failure Unit)) : Prop :=
  match entry.input with
  | .issueValidationSession draws _ _ _ _ =>
      entry.before.sessions.sessions draws.sessionId = none
  | .tryValidateSession _ _ _ | .consumeValidSession _ _ => True

/-- The tables agree after the call, and no expectation failed in it. -/
structure Agrees {α : Type} (answer : Except Failure α × Service) : Prop where
  inverse : answer.2.sessions.Inverse
  expected : ∀ message, answer.1 ≠ .error (.panic message)

section

variable {service : Service} (inverse : service.sessions.Inverse)

include inverse

theorem agrees_ok {α : Type} (value : α) :
    Agrees ((.ok value, service) : Except Failure α × Service) :=
  ⟨inverse, fun _ same => by cases same⟩

theorem agrees_rejected {α : Type} (reason : String) :
    Agrees ((.error (.rejected reason), service) :
      Except Failure α × Service) :=
  ⟨inverse, fun _ same => by cases same⟩

theorem issueValidationSession_agrees {draws : Draws}
    (unused : service.sessions.sessions draws.sessionId = none)
    (email : Address) (clientSecret : ClientSecret) (sendAttempt : Nat)
    (fixedToken : Option String) :
    Agrees (service.issueValidationSession draws email clientSecret sendAttempt
      fixedToken) := by
  obtain ⟨found, looked⟩ := inverse.getSessionByClientSecret clientSecret
  unfold Service.issueValidationSession
  rw [looked]
  cases found with
  | none =>
      have missing := ValidationSessions.getSessionByClientSecret_none looked
      exact agrees_ok (inverse.create draws email _ missing unused) _
  | some row =>
      have stored := ValidationSessions.getSessionByClientSecret_ok looked
      simp only
      split
      · exact agrees_ok inverse _
      · split
        · exact ⟨inverse, fun _ same => by cases same⟩
        · split
          · refine agrees_ok ?_ _
            exact inverse
          · refine agrees_ok ?_ _
            exact inverse.put stored rfl

theorem tryValidateSession_agrees (draws : Draws) (sessionId : SessionId)
    (suppliedToken : String) :
    Agrees (service.tryValidateSession draws sessionId suppliedToken) := by
  unfold Service.tryValidateSession
  cases stored : service.sessions.sessions sessionId with
  | none => exact agrees_rejected inverse _
  | some session =>
      simp only
      split
      · exact agrees_ok inverse _
      · split
        · exact agrees_rejected inverse _
        · refine agrees_ok ?_ _
          exact inverse.put stored rfl

theorem consumeValidSession_agrees (sessionId : SessionId)
    (clientSecret : ClientSecret) :
    Agrees (service.consumeValidSession sessionId clientSecret) := by
  unfold Service.consumeValidSession
  cases stored : service.sessions.sessions sessionId with
  | none => exact agrees_rejected inverse _
  | some session =>
      obtain ⟨removed, kept⟩ := inverse.removeSession stored
      simp only
      split
      · rw [removed]
        exact agrees_ok kept _
      · exact agrees_rejected inverse _

end

theorem sessionStep_agrees {history : SessionHistory} {service : Service}
    (inverse : service.sessions.Inverse) (call : SessionCall)
    (unused : DrawsUnused history (entryOf sessionStep service call)) :
    Agrees (sessionStep service call).swap := by
  have mapped : ∀ {α : Type} {answer : Except Failure α × Service},
      Agrees answer → Agrees (answer.1.map fun _ => (), answer.2) := by
    intro α answer agrees
    refine ⟨agrees.inverse, fun message failed => ?_⟩
    cases result : answer.1 with
    | ok value => rw [result] at failed; cases failed
    | error failure =>
        rw [result] at failed
        cases failed
        exact agrees.expected message result
  cases call with
  | issueValidationSession draws email clientSecret sendAttempt fixedToken =>
      exact mapped (issueValidationSession_agrees inverse unused email
        clientSecret sendAttempt fixedToken)
  | tryValidateSession draws sessionId suppliedToken =>
      exact tryValidateSession_agrees inverse draws sessionId suppliedToken
  | consumeValidSession sessionId clientSecret =>
      exact mapped (consumeValidSession_agrees inverse sessionId clientSecret)

theorem sessions_inverse {history : SessionHistory} {service : Service}
    (reaches : Reaches sessionStep Service.empty history service)
    (unused : Always DrawsUnused history) :
    service.sessions.Inverse ∧ ∀ entry ∈ history, ∀ message,
        entry.output ≠ .error (.panic message) := by
  refine reaches.invariant (fun history service =>
    service.sessions.Inverse ∧ ∀ entry ∈ history, ∀ message,
      entry.output ≠ .error (.panic message)) ⟨?_, ?_⟩ ?_ unused
  · intro clientSecret sessionId
    simp [Service.empty, ValidationSessions.empty]
  · intro entry member
    cases member
  · rintro history service call ⟨inverse, expected⟩ fresh
    have agrees := sessionStep_agrees inverse call fresh
    refine ⟨agrees.inverse, fun entry member => ?_⟩
    rcases mem_append.mp member with old | new
    · exact expected entry old
    · rw [mem_singleton.mp new]
      exact agrees.expected

def twoSessions : List SessionCall :=
  [.issueValidationSession (drawing 12) "alice@a" "secret" 1 none,
    .tryValidateSession (drawing 0) "session" "0012",
    .consumeValidSession "session" "secret",
    .issueValidationSession (drawing 34) "bob@b" "secret" 1 none]

theorem twoSessions_inverse :
    (run sessionStep Service.empty twoSessions).2.sessions.Inverse := by
  refine (sessions_inverse (reaches_run _ _ twoSessions) ?_).1
  refine Always.snoc (Always.snoc (Always.snoc (Always.snoc Always.nil ?_)
    ?_) ?_) ?_
  · rfl
  · trivial
  · trivial
  · rfl

end ArcanaServer.Threepid
