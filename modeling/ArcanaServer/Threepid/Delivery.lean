import ArcanaServer.Threepid.Service

namespace ArcanaServer.Threepid

open Library List Service ValidationSessions

variable {table : ValidationSessions}

theorem ValidationSessions.getSessionByClientSecret_ok
    {clientSecret : ClientSecret} {key : SessionId}
    {session : ValidationSession}
    (found : table.getSessionByClientSecret clientSecret =
      .ok (some (key, session))) : table.sessions key = some session := by
  unfold getSessionByClientSecret at found
  split at found
  · cases found
  · split at found
    · rename_i stored
      cases found
      exact stored
    · cases found

theorem ValidationSessions.getSessionByClientSecret_none
    {clientSecret : ClientSecret}
    (missing : table.getSessionByClientSecret clientSecret = .ok none) :
    table.clientSecrets clientSecret = none := by
  unfold getSessionByClientSecret at missing
  split at missing
  · assumption
  · split at missing
    · cases missing
    · cases missing

theorem ValidationSessions.removeSession_subset {sessionId other : SessionId}
    {session : ValidationSession}
    (found : (table.removeSession sessionId).2.sessions other =
      some session) : table.sessions other = some session := by
  unfold removeSession at found
  split at found
  · exact found
  · simp only at found
    split at found
    · exact update_none_eq_some found
    · exact update_none_eq_some found

def Issues (service : Service) (draws : Draws) (clientSecret : ClientSecret)
    (sendAttempt : Nat) (fixedToken : Option String) : Prop :=
  match service.sessions.getSessionByClientSecret clientSecret with
  | .error _ => False
  | .ok none => True
  | .ok (some (_, session)) =>
      session.validationState ≠ .validated ∧
        ¬ (fixedToken = none ∧ draws.limited = true) ∧
        (service.sendAttempts (session.clientSecret, session.email)).getD 0 <
          sendAttempt

inductive Issued (service : Service) (draws : Draws) (email : Address)
    (clientSecret : ClientSecret) (sendAttempt : Nat)
    (fixedToken : Option String) :
    Except Failure ValidationChallenge → ValidationSessions → Prop
  | nothing {result : Except Failure ValidationChallenge}
      (quiet : ∀ challenge, result = .ok challenge → challenge.token = none) :
      Issued service draws email clientSecret sendAttempt fixedToken result
        service.sessions
  | replaced {key : SessionId} {session : ValidationSession}
      (issues : Issues service draws clientSecret sendAttempt fixedToken)
      (found : service.sessions.getSessionByClientSecret clientSecret =
        .ok (some (key, session))) :
      Issued service draws email clientSecret sendAttempt fixedToken
        (.ok { sessionId := session.sessionId
               token := some (makeToken draws fixedToken).token })
        (service.sessions.put key { session with
          validationState := .pending (makeToken draws fixedToken) })
  | created (issues : Issues service draws clientSecret sendAttempt fixedToken)
      (missing : service.sessions.clientSecrets clientSecret = none) :
      Issued service draws email clientSecret sendAttempt fixedToken
        (.ok { sessionId := draws.sessionId
               token := some (makeToken draws fixedToken).token })
        (service.sessions.createSessionWithToken draws email clientSecret
          (makeToken draws fixedToken)).2

theorem issueValidationSession_issued (service : Service) (draws : Draws)
    (email : Address) (clientSecret : ClientSecret) (sendAttempt : Nat)
    (fixedToken : Option String) :
    Issued service draws email clientSecret sendAttempt fixedToken
      (service.issueValidationSession draws email clientSecret sendAttempt
        fixedToken).1
      (service.issueValidationSession draws email clientSecret sendAttempt
        fixedToken).2.sessions := by
  unfold issueValidationSession
  split
  · exact .nothing (by intro challenge impossible; cases impossible)
  · rename_i key session found
    split
    · exact .nothing (by intro challenge same; cases same; rfl)
    · rename_i token pending
      split
      · exact .nothing (by intro challenge impossible; cases impossible)
      · rename_i unlimited
        simp only
        split
        · exact .nothing (by intro challenge same; cases same; rfl)
        · rename_i later
          refine .replaced ?_ found
          simp only [Issues, found, pending]
          refine ⟨by simp, ?_, Nat.lt_of_not_le later⟩
          simpa using unlimited
  · rename_i missing
    exact .created (by simp only [Issues, missing])
      (getSessionByClientSecret_none missing)

inductive Request where
  | sendValidationEmail (recipient : Address) (clientSecret : ClientSecret)
      (sendAttempt : Nat)
  | sendValidationCodeEmail (recipient : Address) (clientSecret : ClientSecret)
      (sendAttempt : Nat)
  | tryValidateSession (sessionId : SessionId) (suppliedToken : String)
  | consumeValidSession (sessionId : SessionId) (clientSecret : ClientSecret)

inductive Response where
  | sent (sent : Sent)
  | validated (result : Except Failure Unit)
  | consumed (result : Except Failure Address)

structure Call where
  draws : Draws
  request : Request

section

variable (config : Config)

def step (service : Service) (call : Call) : Service × Response :=
  match call.request with
  | .sendValidationEmail recipient clientSecret sendAttempt =>
      let (sent, service) := service.sendValidationEmail config call.draws
        recipient clientSecret sendAttempt
      (service, .sent sent)
  | .sendValidationCodeEmail recipient clientSecret sendAttempt =>
      let (sent, service) := service.sendValidationCodeEmail config call.draws
        recipient clientSecret sendAttempt
      (service, .sent sent)
  | .tryValidateSession sessionId suppliedToken =>
      let (result, service) :=
        service.tryValidateSession call.draws sessionId suppliedToken
      (service, .validated result)
  | .consumeValidSession sessionId clientSecret =>
      let (result, service) :=
        service.consumeValidSession sessionId clientSecret
      (service, .consumed result)

abbrev History := List (Entry Service Call Response)

/-- The token of a session was sent in a mail to `email`, or is the fixed code
of `email`. -/
def Delivered (history : History) (sessionId : SessionId) (token : String)
    (email : Address) : Prop :=
  (∃ entry ∈ history, ∃ mail, entry.output =
      .sent { result := .ok sessionId, mail := some mail } ∧
    mail.recipient = email ∧ mail.body.token = token) ∨
  config.playReviewCodeFor email = some token

/-- The step has moved a pending session to the validated state. -/
structure Moves (entry : Entry Service Call Response) (sessionId : SessionId)
    (token : String) : Prop where
  asks : entry.input.request = .tryValidateSession sessionId token
  accepts : entry.output = .validated (.ok ())
  pending : ∃ session current,
    entry.before.sessions.sessions sessionId = some session ∧
      session.validationState = .pending current

/-- The token that moved the session to the validated state had been delivered
to `email` before. -/
def ValidatedThrough (history : History) (sessionId : SessionId)
    (email : Address) : Prop :=
  ∃ before entry after token, history = before ++ entry :: after ∧
    Moves entry sessionId token ∧
    (∀ later ∈ after, ∀ other, ¬ Moves later sessionId other) ∧
    Delivered config before sessionId token email

/-- A call that issues a token sends it to the address of the session, and its
mail goes out. -/
def Addressed (service : Service) (draws : Draws) (recipient : Address)
    (clientSecret : ClientSecret) (sendAttempt : Nat)
    (fixedToken : Option String) : Prop :=
  Issues service draws clientSecret sendAttempt fixedToken →
    (∀ key session, service.sessions.getSessionByClientSecret clientSecret =
        .ok (some (key, session)) → session.email = recipient) ∧
      (fixedToken = none → config.mailer = true ∧ draws.mailFails = none)

def StepAddressed (_ : History) (entry : Entry Service Call Response) : Prop :=
  match entry.input.request with
  | .sendValidationEmail recipient clientSecret sendAttempt =>
      Addressed config entry.before entry.input.draws recipient clientSecret
        sendAttempt none
  | .sendValidationCodeEmail recipient clientSecret sendAttempt =>
      Addressed config entry.before entry.input.draws recipient clientSecret
        sendAttempt (config.playReviewCodeFor recipient)
  | .tryValidateSession _ _ => True
  | .consumeValidSession _ _ => True

def Sending (service : Service) (draws : Draws) (recipient : Address)
    (clientSecret : ClientSecret) (sendAttempt : Nat)
    (fixedToken : Option String) (sent : Sent) (after : Service) : Prop :=
  ∃ result,
    Issued service draws recipient clientSecret sendAttempt fixedToken result
        after.sessions ∧
      ∀ challenge token, result = .ok challenge →
        challenge.token = some token → fixedToken = none →
        ∃ mail, sent = deliver config draws challenge.sessionId mail ∧
          mail.recipient = recipient ∧ mail.body.token = token

theorem sendValidationEmail_sending (service : Service) (draws : Draws)
    (recipient : Address) (clientSecret : ClientSecret) (sendAttempt : Nat) :
    Sending config service draws recipient clientSecret sendAttempt none
      (service.sendValidationEmail config draws recipient clientSecret
        sendAttempt).1
      (service.sendValidationEmail config draws recipient clientSecret
        sendAttempt).2 := by
  have issued := issueValidationSession_issued service draws recipient
    clientSecret sendAttempt none
  unfold sendValidationEmail
  generalize service.issueValidationSession draws recipient clientSecret
    sendAttempt none = outcome at issued
  obtain ⟨result, after⟩ := outcome
  refine ⟨result, ?_, ?_⟩
  · cases result with
    | error failure => exact issued
    | ok challenge =>
        cases shape : challenge.token <;> simpa only [shape] using issued
  · rintro challenge token rfl found _
    simp only [found]
    exact ⟨_, rfl, rfl, rfl⟩

theorem sendValidationCodeEmail_sending (service : Service) (draws : Draws)
    (recipient : Address) (clientSecret : ClientSecret) (sendAttempt : Nat) :
    Sending config service draws recipient clientSecret sendAttempt
      (config.playReviewCodeFor recipient)
      (service.sendValidationCodeEmail config draws recipient clientSecret
        sendAttempt).1
      (service.sendValidationCodeEmail config draws recipient clientSecret
        sendAttempt).2 := by
  have issued := issueValidationSession_issued service draws recipient
    clientSecret sendAttempt (config.playReviewCodeFor recipient)
  unfold sendValidationCodeEmail
  simp only
  generalize config.playReviewCodeFor recipient = fixedToken at issued
  generalize service.issueValidationSession draws recipient clientSecret
    sendAttempt fixedToken = outcome at issued
  obtain ⟨result, after⟩ := outcome
  refine ⟨result, ?_, ?_⟩
  · cases result with
    | error failure => exact issued
    | ok challenge =>
        cases shape : challenge.token <;> cases fixedToken <;>
          simpa [shape] using issued
  · rintro challenge token rfl found rfl
    simp only [found]
    exact ⟨_, rfl, rfl, rfl⟩

structure DeliveryInv (history : History) (service : Service) : Prop where
  ids : ∀ key session, service.sessions.sessions key = some session →
    session.sessionId = key
  pending : ∀ key session token, service.sessions.sessions key = some session →
      session.validationState = .pending token →
      Delivered config history key token.token session.email
  validated : ∀ key session, service.sessions.sessions key = some session →
    session.validationState = .validated →
      ValidatedThrough config history key session.email

variable {config}

theorem Delivered.append {history : History} {sessionId : SessionId}
    {token : String} {email : Address}
    (delivered : Delivered config history sessionId token email)
    (later : History) :
    Delivered config (history ++ later) sessionId token email := by
  rcases delivered with mailed | fixed
  · obtain ⟨entry, member, rest⟩ := mailed
    exact .inl ⟨entry, mem_append_left _ member, rest⟩
  · exact .inr fixed

theorem ValidatedThrough.snoc {history : History} {sessionId : SessionId}
    {email : Address} {entry : Entry Service Call Response}
    (through : ValidatedThrough config history sessionId email)
    (still : ∀ token, ¬ Moves entry sessionId token) :
    ValidatedThrough config (history ++ [entry]) sessionId email := by
  obtain ⟨before, moving, after, token, split, moves, last, delivered⟩ :=
    through
  refine ⟨before, moving, after ++ [entry], token, ?_, moves, ?_, delivered⟩
  · rw [split, append_assoc, cons_append]
  · exact forall_mem_snoc last still

namespace DeliveryInv

variable {history : History} {service after : Service}
  {entry : Entry Service Call Response}

section

variable (inv : DeliveryInv config history service)
include inv

theorem next (key : SessionId)
    (others : ∀ other session, after.sessions.sessions other = some session →
      service.sessions.sessions other = some session ∨
        other = key ∧ session.sessionId = key ∧
          (∀ token, session.validationState = .pending token →
            Delivered config (history ++ [entry]) key token.token
              session.email) ∧
          (session.validationState = .validated →
            ValidatedThrough config (history ++ [entry]) key session.email))
    (still : ∀ other session, service.sessions.sessions other = some session →
      session.validationState = .validated → ∀ token,
        ¬ Moves entry other token) :
    DeliveryInv config (history ++ [entry]) after := by
  refine ⟨?_, ?_, ?_⟩
  · intro other session found
    rcases others other session found with old | new
    · exact inv.ids other session old
    · rw [new.1, new.2.1]
  · intro other session token found isPending
    rcases others other session found with old | new
    · exact (inv.pending other session token old isPending).append _
    · rw [new.1]
      exact new.2.2.1 token isPending
  · intro other session found isValidated
    rcases others other session found with old | new
    · exact (inv.validated other session old isValidated).snoc
        (still other session old isValidated)
    · rw [new.1]
      exact new.2.2.2 isValidated

theorem sending {draws : Draws} {recipient : Address}
    {clientSecret : ClientSecret} {sendAttempt : Nat}
    {fixedToken : Option String} {sent : Sent}
    (isSending : Sending config service draws recipient clientSecret
      sendAttempt fixedToken sent after)
    (fixed : ∀ code, fixedToken = some code →
      config.playReviewCodeFor recipient = some code)
    (addressed : Addressed config service draws recipient clientSecret
      sendAttempt fixedToken) (output : entry.output = .sent sent) :
    DeliveryInv config (history ++ [entry]) after := by
  obtain ⟨result, issued, mailed⟩ := isSending
  have still : ∀ other session, service.sessions.sessions other = some session →
        session.validationState = .validated → ∀ token,
          ¬ Moves entry other token := by
    intro other session _ _ token moves
    have accepts := moves.accepts
    rw [output] at accepts
    cases accepts
  -- A token that is issued reaches the recipient.
  have reaches : ∀ sessionId, Issues service draws clientSecret sendAttempt
      fixedToken → result = .ok
        { sessionId
          token := some (makeToken draws fixedToken).token } →
      Delivered config (history ++ [entry]) sessionId
        (makeToken draws fixedToken).token recipient := by
    intro sessionId issues isResult
    cases fixedToken with
    | some code => exact .inr (fixed code rfl)
    | none =>
        obtain ⟨mail, isSent, isRecipient, isToken⟩ :=
          mailed _ _ isResult rfl rfl
        obtain ⟨hasMailer, noError⟩ := (addressed issues).2 rfl
        simp only [deliver, hasMailer, noError, if_true] at isSent
        refine .inl ⟨entry, mem_append_right _ (by simp), mail, ?_,
          isRecipient, isToken⟩
        rw [output, isSent]
  generalize table : after.sessions = sessions at issued
  cases issued with
  | nothing _ =>
      refine inv.next "" ?_ still
      intro other session found
      rw [table] at found
      exact .inl found
  | @replaced key session issues found =>
      have stored := getSessionByClientSecret_ok found
      have isKey := inv.ids key session stored
      have email := (addressed issues).1 key session found
      have delivered := reaches session.sessionId issues rfl
      refine inv.next key ?_ still
      intro other session' found'
      rw [table] at found'
      rcases update_eq_some found' with old | new
      · exact .inl old
      · obtain ⟨isOther, isSession⟩ := new
        right
        rw [isSession, isOther]
        refine ⟨rfl, isKey, ?_, ?_⟩
        · intro token isPending
          cases isPending
          rw [email, ← isKey]
          exact delivered
        · intro impossible
          cases impossible
  | created issues _ =>
      have delivered := reaches draws.sessionId issues rfl
      refine inv.next draws.sessionId ?_ still
      intro other session' found'
      rw [table] at found'
      rcases update_eq_some found' with old | new
      · exact .inl old
      · obtain ⟨isOther, isSession⟩ := new
        right
        rw [isSession, isOther]
        refine ⟨rfl, rfl, ?_, ?_⟩
        · intro token isPending
          cases isPending
          exact delivered
        · intro impossible
          cases impossible

theorem validating (draws : Draws) (sessionId : SessionId)
    (suppliedToken : String) (isEntry : entry = entryOf (step config) service
      ⟨draws, .tryValidateSession sessionId suppliedToken⟩) :
    DeliveryInv config (history ++ [entry])
      (service.tryValidateSession draws sessionId suppliedToken).2 := by
  have still : ∀ other session, service.sessions.sessions other = some session →
        session.validationState = .validated → ∀ token,
          ¬ Moves entry other token := by
    intro other session found isValidated token moves
    obtain ⟨session', current, found', isPending⟩ := moves.pending
    rw [isEntry] at found'
    have same : session = session' := Option.some.inj (found.symm.trans found')
    rw [← same, isValidated] at isPending
    cases isPending
  unfold tryValidateSession
  cases found : service.sessions.sessions sessionId with
  | none =>
      refine inv.next "" ?_ still
      intro other session kept
      exact .inl kept
  | some session =>
      cases state : session.validationState with
      | validated =>
          simp only [state]
          refine inv.next "" ?_ still
          intro other session kept
          exact .inl kept
      | pending token =>
          simp only [state]
          split
          · refine inv.next "" ?_ still
            intro other session kept
            exact .inl kept
          · rename_i accepted
            obtain ⟨sameToken, valid⟩ := not_or.mp accepted
            have isToken : token.token = suppliedToken :=
              Decidable.not_not.mp sameToken
            have moves : Moves entry sessionId suppliedToken := by
              refine ⟨?_, ?_, ?_⟩
              · rw [isEntry]
                rfl
              · rw [isEntry]
                simp only [entryOf, step, tryValidateSession, found,
                  state, accepted, if_false]
              · rw [isEntry]
                exact ⟨session, token, found, state⟩
            have delivered := inv.pending sessionId session token found state
            rw [isToken] at delivered
            refine inv.next sessionId ?_ still
            intro other session' found'
            rcases update_eq_some found' with old | new
            · exact .inl old
            · obtain ⟨isOther, isSession⟩ := new
              right
              rw [isSession, isOther]
              refine ⟨rfl, inv.ids sessionId session found, ?_, ?_⟩
              · intro other impossible
                cases impossible
              · intro _
                exact ⟨history, entry, [], suppliedToken, rfl, moves,
                  by simp, delivered⟩

theorem consuming (sessionId : SessionId) (clientSecret : ClientSecret)
    {result : Except Failure Address} (output : entry.output = .consumed result) :
    DeliveryInv config (history ++ [entry])
      (service.consumeValidSession sessionId clientSecret).2 := by
  have kept : ∀ other session, (service.consumeValidSession sessionId
        clientSecret).2.sessions.sessions other = some session →
      service.sessions.sessions other = some session := by
    intro other session found
    unfold consumeValidSession at found
    split at found
    · exact found
    · split at found
      · exact removeSession_subset found
      · exact found
  refine inv.next "" (fun other session found =>
    .inl (kept other session found)) ?_
  intro other session _ _ token moves
  have accepts := moves.accepts
  rw [output] at accepts
  cases accepts

end

theorem empty : DeliveryInv config [] empty := by
  refine ⟨?_, ?_, ?_⟩
  · intro key session found
    cases found
  · intro key session token found
    cases found
  · intro key session found
    cases found

theorem step (history : History) (service : Service) (call : Call)
    (inv : DeliveryInv config history service)
    (addressed : StepAddressed config history
      (entryOf (Threepid.step config) service call)) :
    DeliveryInv config
      (history ++ [entryOf (Threepid.step config) service call])
      (Threepid.step config service call).1 := by
  obtain ⟨draws, request⟩ := call
  cases request with
  | sendValidationEmail recipient clientSecret sendAttempt =>
      exact inv.sending
        (sendValidationEmail_sending config service draws recipient
          clientSecret sendAttempt)
        (by intro code impossible; cases impossible) addressed rfl
  | sendValidationCodeEmail recipient clientSecret sendAttempt =>
      exact inv.sending
        (sendValidationCodeEmail_sending config service draws recipient
          clientSecret sendAttempt)
        (fun code isFixed => isFixed) addressed rfl
  | tryValidateSession sessionId suppliedToken =>
      exact inv.validating draws sessionId suppliedToken rfl
  | consumeValidSession sessionId clientSecret =>
      exact inv.consuming sessionId clientSecret rfl

end DeliveryInv

theorem reaches_deliveryInv {history : History} {service : Service}
    (reaches : Reaches (step config) empty history service)
    (always : Always (StepAddressed config) history) :
    DeliveryInv config history service :=
  reaches.invariant (DeliveryInv config) DeliveryInv.empty DeliveryInv.step
    always

theorem consumeValidSession_ok {service : Service} {sessionId : SessionId}
    {clientSecret : ClientSecret} {email : Address}
    (consumed : (service.consumeValidSession sessionId clientSecret).1 =
      .ok email) :
    ∃ session, service.sessions.sessions sessionId = some session ∧
      session.clientSecret = clientSecret ∧
      session.validationState = .validated ∧ session.email = email := by
  unfold consumeValidSession at consumed
  split at consumed
  · cases consumed
  · rename_i session found
    split at consumed
    · rename_i accepted
      refine ⟨session, found, accepted.1, accepted.2, ?_⟩
      simp only [removeSession, found] at consumed
      split at consumed
      · cases consumed
      · cases consumed
        rfl
    · cases consumed

variable (config)

/-- Whenever a run gives out the address of a validated session, the token
that validated it had been delivered to that address. -/
theorem consumed_validatedThrough {history earlier later : History}
    {service : Service} {entry : Entry Service Call Response}
    {sessionId : SessionId} {clientSecret : ClientSecret} {email : Address}
    (reaches : Reaches (step config) empty history service)
    (always : Always (StepAddressed config) history)
    (split : history = earlier ++ entry :: later)
    (asks : entry.input.request = .consumeValidSession sessionId clientSecret)
    (answer : entry.output = .consumed (.ok email)) :
    ValidatedThrough config earlier sessionId email := by
  obtain ⟨reached, isEntry⟩ := reaches.entry split
  rw [split] at always
  have inv := reaches_deliveryInv reached always.initial
  have consumed : (entry.before.consumeValidSession sessionId
      clientSecret).1 = .ok email := by
    rw [isEntry] at answer
    simpa only [entryOf, step, asks, Response.consumed.injEq] using answer
  obtain ⟨session, found, _, isValidated, isEmail⟩ :=
    consumeValidSession_ok consumed
  rw [← isEmail]
  exact inv.validated sessionId session found isValidated

end

def mailing : Config where
  mailer := true
  playReview := none

def drawing (random : Fin 10000) : Draws where
  now := 0
  random := random
  sessionId := "session"
  limited := false
  mailFails := none

def redirectedCalls : List Call :=
  [⟨drawing 1234, .sendValidationCodeEmail "owner@server" "secret" 1⟩,
    ⟨drawing 5678, .sendValidationCodeEmail "other@server" "secret" 2⟩,
    ⟨drawing 0, .tryValidateSession "session" "5678"⟩]

theorem redirected_mails :
    ∀ entry ∈ (run (step mailing) empty redirectedCalls).1,
      ∀ mail, entry.output =
          .sent { result := .ok "session", mail := some mail } →
        mail.recipient = "owner@server" → mail.body.token = "1234" := by
  intro entry member mail isMail toOwner
  simp only [redirectedCalls, run, mem_cons, not_mem_nil, or_false] at member
  obtain isEntry | isEntry | isEntry := member
  · subst isEntry
    cases isMail
    rfl
  · subst isEntry
    cases isMail
    exact absurd toOwner (by decide)
  · subst isEntry
    cases isMail

theorem redirected_supplies :
    ∀ entry ∈ (run (step mailing) empty redirectedCalls).1,
      ∀ sessionId token, entry.input.request =
        .tryValidateSession sessionId token → token = "5678" := by
  intro entry member sessionId token asks
  simp only [redirectedCalls, run, mem_cons, not_mem_nil, or_false] at member
  obtain isEntry | isEntry | isEntry := member
  · subst isEntry
    cases asks
  · subst isEntry
    cases asks
  · subst isEntry
    cases asks
    rfl

theorem redirected_not_validatedThrough :
    let ended := run (step mailing) empty redirectedCalls
    (ended.2.consumeValidSession "session" "secret").1 = .ok "owner@server" ∧
      ¬ ValidatedThrough mailing ended.1 "session" "owner@server" := by
  constructor
  · rfl
  · intro through
    obtain ⟨before, entry, after, token, split, moves, _, delivered⟩ := through
    rcases delivered with mailed | fixed
    · obtain ⟨sending, member, mail, isMail, toOwner, isToken⟩ := mailed
      have listed : sending ∈
          (run (step mailing) empty redirectedCalls).1 := by
        rw [split]
        exact mem_append_left _ member
      have moving : entry ∈
          (run (step mailing) empty redirectedCalls).1 := by
        rw [split]
        exact mem_append_right _ mem_cons_self
      have mailedToken := redirected_mails sending listed mail isMail toOwner
      rw [isToken, redirected_supplies entry moving "session" token
        moves.asks] at mailedToken
      exact absurd mailedToken (by decide)
    · cases fixed

def orderlyCalls : List Call :=
  [⟨drawing 1234, .sendValidationCodeEmail "owner@server" "secret" 1⟩,
    ⟨drawing 5678, .sendValidationCodeEmail "owner@server" "secret" 2⟩,
    ⟨drawing 0, .tryValidateSession "session" "5678"⟩,
    ⟨drawing 0, .consumeValidSession "session" "secret"⟩]

theorem orderly_addressed : Always (StepAddressed mailing)
      (run (step mailing) empty orderlyCalls).1 := by
  refine (((Always.nil.snoc ?_).snoc ?_).snoc ?_).snoc ?_
  · intro _
    refine ⟨?_, fun _ => ⟨rfl, rfl⟩⟩
    intro key session impossible
    cases impossible
  · intro _
    refine ⟨?_, fun _ => ⟨rfl, rfl⟩⟩
    intro key session found
    cases found
    rfl
  · trivial
  · trivial

theorem orderly_validatedThrough : ValidatedThrough mailing
      (run (step mailing) empty (orderlyCalls.take 3)).1 "session"
      "owner@server" := by
  exact consumed_validatedThrough mailing (reaches_run _ _ orderlyCalls)
    orderly_addressed rfl rfl rfl

end ArcanaServer.Threepid
