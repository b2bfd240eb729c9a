import ArcanaServer.Threepid.Delivery

namespace ArcanaServer.Threepid

open Library Service

/-! The service with its rate limiter, and the mails that take no ticket. -/

def Request.mailing (config : Config) :
    Request → Option (Address × ClientSecret × Option String)
  | .sendValidationEmail recipient clientSecret _ =>
      some (recipient, clientSecret, none)
  | .sendValidationCodeEmail recipient clientSecret _ =>
      some (recipient, clientSecret, config.playReviewCodeFor recipient)
  | .tryValidateSession _ _ => none
  | .consumeValidSession _ _ => none

def asksLimiter (config : Config) (service : Service) (request : Request) :
    Option Address :=
  match request.mailing config with
  | none => none
  | some (recipient, clientSecret, fixedToken) =>
      match service.sessions.getSessionByClientSecret clientSecret with
      | .ok (some (_, session)) =>
          if session.validationState ≠ .validated ∧ fixedToken = none then
            some recipient
          else none
      | _ => none

structure LimitedService (Limits : Type) where
  service : Service
  limits : Limits

structure LimitedResponse where
  response : Response
  ticket : Option Address

section

variable {Limits : Type} (config : Config)
  (checkKey : Limits → Address → Nat → Bool × Limits)

def limitedStep (world : LimitedService Limits) (call : Call) :
    LimitedService Limits × LimitedResponse :=
  match asksLimiter config world.service call.request with
  | none =>
      let (service, response) := step config world.service call
      ({ world with service }, { response, ticket := none })
  | some email =>
      let (granted, limits) := checkKey world.limits email call.draws.now
      let (service, response) := step config world.service
        { call with draws := { call.draws with limited := !granted } }
      ({ service, limits },
        { response, ticket := if granted then some email else none })

abbrev LimitedHistory (Limits : Type) :=
  List (Entry (LimitedService Limits) Call LimitedResponse)

def Response.mail : Response → Option Mail
  | .sent answer => answer.mail
  | .validated _ => none
  | .consumed _ => none

def Ticketed (history : LimitedHistory Limits) : Prop :=
  ∀ entry ∈ history, ∀ mail, entry.output.response.mail = some mail →
    entry.output.ticket = some mail.recipient

variable (history : LimitedHistory Limits) (address : Address)
  (period : Nat → Bool)

def mailsTo : Nat :=
  history.countP (fun entry => period entry.input.draws.now &&
    (entry.output.response.mail.map Mail.recipient == some address))

def ticketsOf : Nat :=
  history.countP (fun entry => period entry.input.draws.now &&
    (entry.output.ticket == some address))

/-- A call that opens a session and whose mail goes out. -/
structure OpensWithMail (service : Service) (call : Call) : Prop where
  opens : ∃ recipient clientSecret,
    call.request.mailing config = some (recipient, clientSecret, none) ∧
      service.sessions.getSessionByClientSecret clientSecret = .ok none
  mailer : config.mailer = true
  accepted : call.draws.mailFails = none

variable {config}

theorem issueValidationSession_token (service : Service) (draws : Draws)
    (email : Address) (clientSecret : ClientSecret) (sendAttempt : Nat)
    (fixedToken : Option String) :
    (∃ challenge token, (service.issueValidationSession draws email
        clientSecret sendAttempt fixedToken).1 = .ok challenge ∧
          challenge.token = some token) ↔
      Issues service draws clientSecret sendAttempt fixedToken := by
  unfold issueValidationSession Issues
  cases found : service.sessions.getSessionByClientSecret clientSecret with
  | error failure => simp
  | ok held =>
      cases held with
      | none => simp
      | some entry =>
          obtain ⟨key, session⟩ := entry
          simp only
          cases session.validationState with
          | validated => simp
          | pending token =>
              simp only
              split
              next limited =>
                have both : fixedToken = none ∧ draws.limited = true := by
                  simpa using limited
                simp [both.1, both.2]
              next unlimited =>
                have free : fixedToken = none → draws.limited = false := by
                  simpa using unlimited
                split
                next early => simpa using fun _ => early
                next late => simpa [Nat.lt_of_not_le late] using free

theorem deliver_mail {draws : Draws} {sessionId : SessionId}
    {posted mail : Mail} :
    (deliver config draws sessionId posted).mail = some mail ↔
      posted = mail ∧ config.mailer = true ∧ draws.mailFails = none := by
  unfold deliver
  cases config.mailer with
  | false => simp
  | true => cases draws.mailFails <;> simp

section

variable {service : Service} {draws : Draws} {recipient : Address}
  {clientSecret : ClientSecret} {sendAttempt : Nat}

def mailed (config : Config) (draws : Draws) (recipient : Address)
    (body : SessionId → String → MailBody) :
    Except Failure ValidationChallenge → Sent
  | .error failure => { result := .error failure, mail := none }
  | .ok challenge =>
      match challenge.token with
      | none => { result := .ok challenge.sessionId, mail := none }
      | some token =>
          deliver config draws challenge.sessionId
            { recipient, body := body challenge.sessionId token }

theorem mailed_mail (body : SessionId → String → MailBody)
    (result : Except Failure ValidationChallenge) (address : Address) :
    (∃ mail, (mailed config draws recipient body result).mail = some mail ∧
        mail.recipient = address) ↔
      address = recipient ∧ (∃ challenge token, result = .ok challenge ∧
          challenge.token = some token) ∧
          config.mailer = true ∧ draws.mailFails = none := by
  unfold mailed
  cases result with
  | error failure => simp
  | ok challenge =>
      cases shape : challenge.token with
      | none => simp [shape]
      | some token =>
          simp only [shape, deliver_mail]
          constructor
          · rintro ⟨mail, ⟨rfl, goesOut⟩, rfl⟩
            exact ⟨rfl, ⟨challenge, token, rfl, shape⟩, goesOut⟩
          · rintro ⟨rfl, _, goesOut⟩
            exact ⟨_, ⟨rfl, goesOut⟩, rfl⟩

theorem sendValidationEmail_mail (address : Address) :
    (∃ mail, (service.sendValidationEmail config draws recipient clientSecret
        sendAttempt).1.mail = some mail ∧ mail.recipient = address) ↔
      address = recipient ∧ Issues service draws clientSecret sendAttempt none ∧
          config.mailer = true ∧ draws.mailFails = none := by
  rw [← issueValidationSession_token service draws recipient clientSecret
    sendAttempt none, ← mailed_mail .link]
  unfold sendValidationEmail mailed
  generalize service.issueValidationSession draws recipient clientSecret
    sendAttempt none = outcome
  obtain ⟨result, after⟩ := outcome
  cases result with
  | error failure => rfl
  | ok challenge => cases shape : challenge.token <;> simp only [shape]

theorem sendValidationCodeEmail_mail (address : Address) :
    (∃ mail, (service.sendValidationCodeEmail config draws recipient
        clientSecret sendAttempt).1.mail = some mail ∧
          mail.recipient = address) ↔
      address = recipient ∧ config.playReviewCodeFor recipient = none ∧
        Issues service draws clientSecret sendAttempt none ∧
          config.mailer = true ∧ draws.mailFails = none := by
  unfold sendValidationCodeEmail
  cases fixed : config.playReviewCodeFor recipient with
  | some code =>
      simp only [reduceCtorEq, false_and, and_false, iff_false]
      generalize service.issueValidationSession draws recipient clientSecret
        sendAttempt (some code) = outcome
      obtain ⟨result, after⟩ := outcome
      cases result with
      | error failure => simp
      | ok challenge => cases shape : challenge.token <;> simp [shape]
  | none =>
      simp only [true_and, Option.isSome_none, Bool.false_eq_true, if_false]
      rw [← issueValidationSession_token service draws recipient clientSecret
        sendAttempt none, ← mailed_mail (fun _ => .code)]
      unfold mailed
      generalize service.issueValidationSession draws recipient clientSecret
        sendAttempt none = outcome
      obtain ⟨result, after⟩ := outcome
      cases result with
      | error failure => rfl
      | ok challenge => cases shape : challenge.token <;> simp only [shape]

end

def Request.sendAttempt : Request → Nat
  | .sendValidationEmail _ _ sendAttempt => sendAttempt
  | .sendValidationCodeEmail _ _ sendAttempt => sendAttempt
  | .tryValidateSession _ _ => 0
  | .consumeValidSession _ _ => 0

theorem step_mail {service : Service} {call : Call} (address : Address) :
    (∃ mail, (step config service call).2.mail = some mail ∧
        mail.recipient = address) ↔
      ∃ clientSecret, call.request.mailing config =
          some (address, clientSecret, none) ∧
        Issues service call.draws clientSecret call.request.sendAttempt none ∧
          config.mailer = true ∧ call.draws.mailFails = none := by
  obtain ⟨draws, request⟩ := call
  cases request with
  | sendValidationEmail recipient clientSecret sendAttempt =>
      refine (sendValidationEmail_mail address).trans ?_
      simp only [Request.mailing, Request.sendAttempt, Option.some.injEq,
        Prod.mk.injEq, and_true]
      constructor
      · rintro ⟨rfl, rest⟩
        exact ⟨clientSecret, ⟨rfl, rfl⟩, rest⟩
      · rintro ⟨_, ⟨rfl, rfl⟩, rest⟩
        exact ⟨rfl, rest⟩
  | sendValidationCodeEmail recipient clientSecret sendAttempt =>
      refine (sendValidationCodeEmail_mail address).trans ?_
      simp only [Request.mailing, Request.sendAttempt, Option.some.injEq,
        Prod.mk.injEq]
      constructor
      · rintro ⟨rfl, unfixed, rest⟩
        exact ⟨clientSecret, ⟨rfl, rfl, unfixed⟩, rest⟩
      · rintro ⟨_, ⟨rfl, rfl, unfixed⟩, rest⟩
        exact ⟨rfl, unfixed, rest⟩
  | tryValidateSession sessionId token
  | consumeValidSession sessionId clientSecret =>
      simp [step, Response.mail, Request.mailing]

theorem asksLimiter_eq_some {service : Service} {request : Request}
    {email : Address} (asks : asksLimiter config service request = some email) :
    ∃ clientSecret key session,
      request.mailing config = some (email, clientSecret, none) ∧
      service.sessions.getSessionByClientSecret clientSecret =
        .ok (some (key, session)) := by
  unfold asksLimiter at asks
  split at asks
  · cases asks
  next recipient clientSecret fixedToken mailing =>
  split at asks
  next key session held =>
    split at asks
    next both =>
      cases asks
      rw [both.2] at mailing
      exact ⟨_, _, _, mailing, held⟩
    · cases asks
  · cases asks

/-- A mail without a ticket is that of a call that opens a session. -/
theorem limitedStep_unticketed_iff (world : LimitedService Limits)
    (call : Call) :
    (∃ mail, (limitedStep config checkKey world call).2.response.mail =
        some mail ∧ (limitedStep config checkKey world call).2.ticket ≠
          some mail.recipient) ↔
      OpensWithMail config world.service call := by
  unfold limitedStep
  cases asks : asksLimiter config world.service call.request with
  | none =>
      simp only [ne_eq, reduceCtorEq, not_false_eq_true, and_true]
      constructor
      · rintro ⟨mail, sent⟩
        obtain ⟨clientSecret, mailing, issues, hasMailer, noError⟩ :=
          (step_mail mail.recipient).mp ⟨mail, sent, rfl⟩
        refine ⟨⟨mail.recipient, clientSecret, mailing, ?_⟩, hasMailer, noError⟩
        unfold asksLimiter at asks
        unfold Issues at issues
        rw [mailing] at asks
        cases held : world.service.sessions.getSessionByClientSecret
            clientSecret with
        | error failure => simp [held] at issues
        | ok session =>
            cases session with
            | none => rfl
            | some entry =>
                simp only [held] at asks issues
                simp [issues.1] at asks
      · rintro ⟨⟨recipient, clientSecret, mailing, missing⟩, hasMailer, noError⟩
        have issues : Issues world.service call.draws clientSecret
            call.request.sendAttempt none := by
          simp only [Issues, missing]
        obtain ⟨mail, sent, _⟩ := (step_mail recipient).mpr
          ⟨clientSecret, mailing, issues, hasMailer, noError⟩
        exact ⟨mail, sent⟩
  | some email =>
      obtain ⟨clientSecret, key, session, mailing, held⟩ :=
        asksLimiter_eq_some asks
      refine iff_of_false ?_ ?_
      · rintro ⟨mail, sent, unticketed⟩
        obtain ⟨other, otherMailing, issues, _⟩ :=
          (step_mail mail.recipient).mp ⟨mail, sent, rfl⟩
        have same : mail.recipient = email ∧ other = clientSecret := by
          simpa [mailing, eq_comm] using otherMailing
        rw [same.1] at unticketed
        rw [same.2] at issues
        unfold Issues at issues
        simp only [held] at issues
        have granted : (checkKey world.limits email call.draws.now).1 = true :=
          by simpa using issues.2.1
        simp [granted] at unticketed
      · rintro ⟨⟨other, otherSecret, otherMailing, missing⟩, _, _⟩
        rw [mailing] at otherMailing
        cases otherMailing
        rw [held] at missing
        cases missing

/-- In a history whose mails have tickets, an address gets at most one mail for
each ticket that its limiter has given. -/
theorem Ticketed.mailsTo_le {history : LimitedHistory Limits}
    (ticketed : Ticketed history) (address : Address) (period : Nat → Bool) :
    mailsTo history address period ≤ ticketsOf history address period := by
  refine List.countP_mono_left ?_
  intro entry member mailed
  simp only [Bool.and_eq_true, beq_iff_eq, Option.map_eq_some_iff] at mailed ⊢
  obtain ⟨inPeriod, mail, sent, rfl⟩ := mailed
  exact ⟨inPeriod, ticketed entry member mail sent⟩

/-- In a run every mail takes a ticket, and the tickets bound the mails of
every period, if and only if no call opens a session and mails its token. -/
theorem mails_ticketed_iff {start world : LimitedService Limits}
    {history : LimitedHistory Limits}
    (reaches : Reaches (limitedStep config checkKey) start history world) :
    (Ticketed history ∧ ∀ address period,
        mailsTo history address period ≤ ticketsOf history address period) ↔
      ∀ entry ∈ history,
        ¬ OpensWithMail config entry.before.service entry.input := by
  have unticketed : ∀ entry ∈ history,
      ((∃ mail, entry.output.response.mail = some mail ∧
          entry.output.ticket ≠ some mail.recipient) ↔
        OpensWithMail config entry.before.service entry.input) := by
    intro entry member
    obtain ⟨earlier, later, split⟩ := List.append_of_mem member
    obtain ⟨_, isEntry⟩ := reaches.entry split
    rw [isEntry]
    exact limitedStep_unticketed_iff checkKey entry.before entry.input
  constructor
  · rintro ⟨ticketed, _⟩ entry member opens
    obtain ⟨mail, sent, noTicket⟩ := (unticketed entry member).mpr opens
    exact noTicket (ticketed entry member mail sent)
  · intro quiet
    have ticketed : Ticketed history := by
      intro entry member mail sent
      by_contra noTicket
      exact quiet entry member
        ((unticketed entry member).mp ⟨mail, sent, noTicket⟩)
    exact ⟨ticketed, ticketed.mailsTo_le⟩

end

namespace EmailLimiter

abbrev Limits := Address → Option Nat

def replenishOnePer : Nat := 6 * 1000000000

/-- Whether the theoretical arrival time of an address leaves room for one more
mail. -/
def checkKey (limits : Limits) (email : Address) (now : Nat) :
    Bool × Limits :=
  let arrival := (limits email).getD (now + replenishOnePer)
  if now < arrival - 2 * replenishOnePer then (false, limits)
  else
    (true, Function.update limits email
      (some (max arrival now + replenishOnePer)))

def start : LimitedService Limits where
  service := empty
  limits := fun _ => none

def draw (sessionId : SessionId) (mailFails : Option String) : Draws where
  now := 0
  random := 1234
  sessionId
  limited := false
  mailFails

def secondMail : List Call :=
  [⟨draw "one" (some "refused"), .sendValidationEmail "alice@mail" "secret" 1⟩,
    ⟨draw "one" none, .sendValidationEmail "alice@mail" "secret" 2⟩]

theorem secondMail_ticketed :
    Ticketed (run (limitedStep mailing checkKey) start secondMail).1 ∧
      ∀ address period,
        mailsTo (run (limitedStep mailing checkKey) start secondMail).1
            address period ≤
          ticketsOf (run (limitedStep mailing checkKey) start secondMail).1
            address period := by
  refine (mails_ticketed_iff checkKey (reaches_run _ _ secondMail)).mpr ?_
  intro entry member opens
  simp only [secondMail, run, List.mem_cons, List.not_mem_nil, or_false]
    at member
  rcases member with rfl | rfl
  · cases opens.accepted
  · obtain ⟨recipient, clientSecret, mailing, missing⟩ := opens.opens
    cases mailing
    cases missing

def threeSecrets : List Call :=
  [⟨draw "one" none, .sendValidationCodeEmail "alice@mail" "first" 1⟩,
    ⟨draw "two" none, .sendValidationCodeEmail "alice@mail" "second" 1⟩,
    ⟨draw "three" none, .sendValidationCodeEmail "alice@mail" "third" 1⟩]

/-- The address gets three mails at once, and its limiter has given no
ticket. -/
theorem threeSecrets_unlimited :
    mailsTo (run (limitedStep mailing checkKey) start threeSecrets).1
        "alice@mail" (fun now => now == 0) = 3 ∧
      ticketsOf (run (limitedStep mailing checkKey) start threeSecrets).1
        "alice@mail" (fun now => now == 0) = 0 ∧
      ¬ Ticketed (run (limitedStep mailing checkKey) start threeSecrets).1 := by
  refine ⟨rfl, rfl, ?_⟩
  intro ticketed
  have few := ticketed.mailsTo_le "alice@mail" (fun now => now == 0)
  have counts : ¬ 3 ≤ 0 := by decide
  exact counts few

end EmailLimiter

end ArcanaServer.Threepid
