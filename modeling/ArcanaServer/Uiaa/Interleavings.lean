import ArcanaServer.Uiaa.Service

namespace ArcanaServer.Uiaa

open Library Users Threepid List Function

/-! Calls that run beside each other.  A call takes the lock on the sessions
once to create a session and once to continue one, and other calls may come in
between. -/

inductive Act where
  | create (flows : List AuthFlow) (params : String)
      (identity : Option Identity)
  | proceed (auth : AuthData) (sessionId : String)
  | elsewhere (world : World)

structure Input where
  surroundings : Surroundings
  act : Act

inductive Output where
  | created (info : UiaaInfo)
  | proceeded (result : Except AuthenticateError Identity)
  | done

section

variable (config : Config)

def perform (service : Service) (input : Input) : Service × Output :=
  match input.act with
  | .create flows params identity =>
      let session := newSession input.surroundings flows params identity
      (createSession input.surroundings service session, .created session.info)
  | .proceed auth sessionId =>
      let (result, service) :=
        continueSession config input.surroundings service auth sessionId
      (service, .proceeded result)
  | .elsewhere world => ({ service with world }, .done)

end

section

variable {config : Config} {surroundings : Surroundings} {service : Service}
  {session : UiaaSession} {auth : AuthData} {authType : AuthType}
  {sessionId : String}

structure Submits (session : UiaaSession) (auth : AuthData)
    (authType : AuthType) : Prop where
  names : auth.authType = some authType
  offered : session.info.flows.any (fun flow =>
    (stageNames flow.stages).contains authType.asStr) = true
  open_ : (stageNames session.info.completed).contains authType.asStr = false

def UiaaSession.passed (session : UiaaSession) (stage : AuthType)
    (identity : Identity) : UiaaSession where
  info := { session.info with
    authError := none
    completed := session.info.completed ++ [stage] }
  identity := identity

def UiaaSession.failed (session : UiaaSession) (body : StandardErrorBody) :
    UiaaSession :=
  { session with info := { session.info with authError := some body } }

def finish (service : Service) (sessionId : String) (updated : UiaaSession)
    (world : World) : Except AuthenticateError Identity × Service :=
  if updated.isComplete then
    (.ok updated.identity,
      { sessions := Function.update service.sessions sessionId none, world })
  else
    (.error (.uiaa updated.info),
      { sessions := Function.update service.sessions sessionId (some updated)
        world })

theorem continueSession_submits
    (stored : service.sessions sessionId = some session)
    (submits : Submits session auth authType) :
    continueSession config surroundings service auth sessionId =
      match checkStage config surroundings auth session.identity
          service.world with
      | .ok (stage, identity) world =>
          finish service sessionId (session.passed stage identity) world
      | .error (.refused body) world =>
          finish service sessionId (session.failed body) world
      | .error (.panic message) world =>
          (.error (.panic message), { service with world }) := by
  unfold continueSession checkSession
  simp only [stored, submits.names, submits.offered, submits.open_,
    Bool.not_true, Bool.false_eq_true, if_false]
  cases checkStage config surroundings auth session.identity service.world with
  | ok result world => rfl
  | error failure world =>
      cases failure with
      | refused body | panic message => rfl

variable {identity : Identity}

theorem checkStage_stage {result : Identity} {stage : AuthType}
    {world after : World} (names : auth.authType = some authType)
    (passed : checkStage config surroundings auth identity world =
      .ok (stage, result) after) : stage = authType := by
  cases auth with
  | password session identifier password | reCaptcha session response
  | emailIdentity session sid clientSecret idAccessToken
  | registrationToken session token =>
      obtain ⟨_, _, _, answered⟩ := bind_ok passed
      cases answered
      exact Option.some.inj names
  | dummy session | terms session =>
      cases passed
      exact Option.some.inj names
  | fallbackAcknowledgement session | other session authType => cases passed

/-- The name of every completed stage stands there once, and only a flow
without stages is complete. -/
structure UiaaSession.Open (session : UiaaSession) : Prop where
  once : (stageNames session.info.completed).Nodup
  unfinished : session.isComplete = true →
    ∃ flow ∈ session.info.flows, flow.stages = []

inductive Leaves (updated : UiaaSession) (sessionId : String)
    (after : Service) : Output → Prop
  | stored (body : AuthenticateError) (incomplete : updated.isComplete = false)
      (found : after.sessions sessionId = some updated) :
      Leaves updated sessionId after (.proceeded (.error body))
  | consumed (complete : updated.isComplete = true)
      (gone : after.sessions sessionId = none) :
      Leaves updated sessionId after (.proceeded (.ok updated.identity))

theorem finish_leaves (service : Service) (sessionId : String)
    (updated : UiaaSession) (world : World) :
    Leaves updated sessionId (finish service sessionId updated world).2
      (.proceeded (finish service sessionId updated world).1) := by
  unfold finish
  cases complete : updated.isComplete with
  | true => exact .consumed complete (update_self _ _ _)
  | false => exact .stored _ complete (update_self _ _ _)

/-- A call that continues a session is turned away, finds its stage completed
already, or submits it. -/
theorem continueSession_cases (config : Config) (surroundings : Surroundings)
    (service : Service) (auth : AuthData) (sessionId : String) :
    (∃ error, continueSession config surroundings service auth sessionId =
        (.error error, service)) ∨
      ∃ session, service.sessions sessionId = some session ∧
        (continueSession config surroundings service auth sessionId =
            finish service sessionId session service.world ∨
          ∃ authType, Submits session auth authType) := by
  cases stored : service.sessions sessionId with
  | none =>
      refine .inl ⟨.request .invalidParam "Invalid session", ?_⟩
      unfold continueSession
      rw [stored]
  | some session =>
      cases names : auth.authType with
      | none =>
          refine .inl ⟨.uiaa session.info, ?_⟩
          unfold continueSession
          simp only [stored, names]
      | some authType =>
          cases offered : session.info.flows.any (fun flow =>
              (stageNames flow.stages).contains authType.asStr) with
          | false =>
              refine .inl ⟨.request .invalidParam
                "No flows include the supplied stage", ?_⟩
              unfold continueSession
              simp only [stored, names, offered, Bool.not_false, if_true]
          | true =>
              refine .inr ⟨session, rfl, ?_⟩
              cases completed : (stageNames
                  session.info.completed).contains authType.asStr with
              | false => exact .inr ⟨authType, names, offered, completed⟩
              | true =>
                  refine .inl ?_
                  unfold continueSession checkSession
                  simp only [stored, names, offered, completed, Bool.not_true,
                    Bool.false_eq_true, if_false, if_true]
                  rfl

theorem finish_gone {updated : UiaaSession} {world : World}
    (passed : (finish service sessionId updated world).1 = .ok identity) :
    (finish service sessionId updated world).2.sessions sessionId = none := by
  have leaves := finish_leaves service sessionId updated world
  rw [passed] at leaves
  cases leaves with
  | consumed complete gone => exact gone

theorem continueSession_gone
    (passed : (continueSession config surroundings service auth
      sessionId).1 = .ok identity) :
    (∃ session, service.sessions sessionId = some session) ∧
      (continueSession config surroundings service auth
        sessionId).2.sessions sessionId = none := by
  obtain ⟨error, refused⟩ | ⟨session, stored, done | ⟨authType, submits⟩⟩ :=
    continueSession_cases config surroundings service auth sessionId
  · rw [refused] at passed
    cases passed
  · rw [done] at passed ⊢
    exact ⟨⟨session, stored⟩, finish_gone passed⟩
  · rw [continueSession_submits stored submits] at passed ⊢
    refine ⟨⟨session, stored⟩, ?_⟩
    split at passed
    next checked =>
      exact finish_gone passed
    next checked =>
      exact finish_gone passed
    · cases passed

theorem finish_stored {updated later : UiaaSession} {world : World}
    {key : String}
    (found : (finish service sessionId updated world).2.sessions key =
      some later) :
    key ≠ sessionId ∧ service.sessions key = some later ∨
      key = sessionId ∧ later = updated ∧ updated.isComplete = false := by
  unfold finish at found
  split at found
  · have row := update_none_eq_some found
    by_cases same : key = sessionId
    · rw [same] at found
      have gone : update service.sessions sessionId none sessionId =
          some later := found
      rw [update_self] at gone
      cases gone
    · exact .inl ⟨same, row⟩
  next incomplete =>
    have row : update service.sessions sessionId (some updated)
        key = some later := found
    by_cases same : key = sessionId
    · rw [same, update_self] at row
      exact .inr ⟨same, (Option.some.inj row).symm,
        Bool.eq_false_iff.mpr incomplete⟩
    · rw [update_of_ne same] at row
      exact .inl ⟨same, row⟩

theorem passed_open {stage : AuthType}
    (once : (stageNames session.info.completed).Nodup)
    (submits : Submits session auth stage)
    (incomplete : (session.passed stage identity).isComplete = false) :
    (session.passed stage identity).Open := by
  constructor
  · have fresh : stage.asStr ∉ stageNames session.info.completed := by
      intro member
      have contained := contains_iff_mem.mpr member
      rw [submits.open_] at contained
      cases contained
    have names : stageNames (session.passed stage identity).info.completed =
        stageNames session.info.completed ++ [stage.asStr] := by
      unfold stageNames UiaaSession.passed
      rw [map_append]
      rfl
    rw [names]
    exact nodup_append.mpr ⟨once, nodup_singleton _,
      fun one member other isOther same => fresh (by
        rw [← mem_singleton.mp isOther, ← same]
        exact member)⟩
  · intro complete
    rw [incomplete] at complete
    cases complete

/-- What is stored after a call continues what was stored before it. -/
theorem continueSession_keeps {key : String} {later : UiaaSession}
    (openAll : ∀ key session, service.sessions key = some session →
      session.Open)
    (found : (continueSession config surroundings service auth
      sessionId).2.sessions key = some later) :
    later.Open ∧ ∃ session, service.sessions key = some session ∧
      session.info.completed <+: later.info.completed := by
  have kept : service.sessions key = some later →
      later.Open ∧ ∃ session, service.sessions key = some session ∧
        session.info.completed <+: later.info.completed :=
    fun old => ⟨openAll key later old, later, old, prefix_rfl⟩
  obtain refused | ⟨session, stored, done | ⟨authType, submits⟩⟩ :=
    continueSession_cases config surroundings service auth sessionId
  · obtain ⟨error, result⟩ := refused
    rw [result] at found
    exact kept found
  · rw [done] at found
    obtain old | ⟨isKey, isLater, _⟩ := finish_stored found
    · exact kept old.2
    · rw [isKey, isLater]
      exact ⟨openAll sessionId session stored, session, stored, prefix_rfl⟩
  · rw [continueSession_submits stored submits] at found
    have opened := openAll sessionId session stored
    split at found
    next stage identity world passed =>
      obtain old | ⟨isKey, isLater, incomplete⟩ := finish_stored found
      · exact kept old.2
      · have isStage := checkStage_stage submits.names passed
        rw [isStage] at isLater incomplete
        rw [isKey, isLater]
        exact ⟨passed_open opened.once submits incomplete, session, stored,
          prefix_append _ _⟩
    next body world refused =>
      obtain old | ⟨isKey, isLater, incomplete⟩ := finish_stored found
      · exact kept old.2
      · rw [isKey, isLater]
        exact ⟨⟨opened.once, opened.unfinished⟩, session, stored, prefix_rfl⟩
    · exact kept found

end

section

variable {config : Config}

def creates (input : Input) (sessionId : String) : Prop :=
  (∃ flows params identity, input.act = .create flows params identity) ∧
    input.surroundings.sessionId = sessionId

/-- The completed stages and the identity are those of the session.  A session
that is gone had a flow without stages, and its identity is the answer. -/
def AsItWas (session : UiaaSession) (sessionId : String) (after : Service)
    (output : Output) : Prop :=
  (∃ left, after.sessions sessionId = some left ∧
      left.info.completed = session.info.completed ∧
      left.identity = session.identity) ∨
    ((∃ flow ∈ session.info.flows, flow.stages = []) ∧
      after.sessions sessionId = none ∧
      output = .proceeded (.ok session.identity))

def Passes (config : Config) (entry : Entry Service Input Output)
    (auth : AuthData) (session : UiaaSession) (stage : AuthType)
    (identity : Identity) : Prop :=
  Submits session auth stage ∧ ∃ world,
    checkStage config entry.input.surroundings auth session.identity
      entry.before.world = .ok (stage, identity) world

/-- What one act does to the sessions. -/
structure Disciplined (config : Config)
    (entry : Entry Service Input Output) : Prop where
  failing : ∀ auth sessionId session,
    entry.input.act = .proceed auth sessionId →
    entry.before.sessions sessionId = some session →
    (∀ stage identity, ¬ Passes config entry auth session stage identity) →
    AsItWas session sessionId (perform config entry.before entry.input).1
      entry.output
  passing : ∀ auth sessionId session stage identity,
    entry.input.act = .proceed auth sessionId →
    entry.before.sessions sessionId = some session →
    Passes config entry auth session stage identity →
    Leaves (session.passed stage identity) sessionId
      (perform config entry.before entry.input).1 entry.output
  kept : ∀ sessionId session later,
    entry.before.sessions sessionId = some session →
    (perform config entry.before entry.input).1.sessions sessionId =
      some later →
    ¬ creates entry.input sessionId →
    session.info.completed <+: later.info.completed
  once : ∀ sessionId later,
    (perform config entry.before entry.input).1.sessions sessionId =
      some later → (stageNames later.info.completed).Nodup

def Consumes (entry : Entry Service Input Output) (sessionId : String) :
    Prop :=
  ∃ auth identity, entry.input.act = .proceed auth sessionId ∧
    entry.output = .proceeded (.ok identity)

def AllOpen (service : Service) : Prop :=
  ∀ key session, service.sessions key = some session → session.Open

theorem newSession_open (surroundings : Surroundings) (flows : List AuthFlow)
    (params : String) (identity : Option Identity) :
    (newSession surroundings flows params identity).Open := by
  refine ⟨nodup_nil, fun complete => ?_⟩
  obtain ⟨flow, member, all⟩ := any_eq_true.mp complete
  refine ⟨flow, member, ?_⟩
  cases isStages : flow.stages with
  | nil => rfl
  | cons stage rest =>
      rw [isStages] at all
      have first := all_eq_true.mp all stage.asStr mem_cons_self
      cases first

variable {service : Service}

theorem AllOpen.perform (opened : AllOpen service) (input : Input) :
    AllOpen (perform config service input).1 := by
  intro key later found
  obtain ⟨surroundings, act⟩ := input
  cases act with
  | create flows params identity =>
      rcases createSession_stored found with old | new
      · exact opened key later old.2
      · rw [new.2]
        exact newSession_open surroundings flows params identity
  | proceed auth sessionId => exact (continueSession_keeps opened found).1
  | elsewhere world => exact opened key later found

variable {sessionId : String}

theorem asItWas_finish {session updated : UiaaSession} (opened : session.Open)
    (world : World) (flows : updated.info.flows = session.info.flows)
    (completed : updated.info.completed = session.info.completed)
    (identity : updated.identity = session.identity) :
    AsItWas session sessionId (finish service sessionId updated world).2
      (.proceeded (finish service sessionId updated world).1) := by
  have leaves := finish_leaves service sessionId updated world
  have complete_eq : updated.isComplete = session.isComplete := by
    unfold UiaaSession.isComplete
    rw [flows, completed]
  generalize (Output.proceeded (finish service sessionId updated world).1) =
    output at leaves ⊢
  cases leaves with
  | stored error incomplete found =>
      exact .inl ⟨updated, found, completed, identity⟩
  | consumed complete gone =>
      rw [complete_eq] at complete
      exact .inr ⟨opened.unfinished complete, gone, by rw [identity]⟩

theorem AllOpen.disciplined (opened : AllOpen service) (input : Input) :
    Disciplined config (entryOf (Uiaa.perform config) service input) := by
  obtain ⟨surroundings, act⟩ := input
  constructor
  · intro auth sessionId session isAct stored noPass
    cases isAct
    change service.sessions sessionId = some session at stored
    have isOpen := opened sessionId session stored
    change AsItWas session sessionId
      (continueSession config surroundings service auth sessionId).2
      (.proceeded
        (continueSession config surroundings service auth sessionId).1)
    obtain ⟨error, refused⟩ | ⟨other, found, done | ⟨authType, submits⟩⟩ :=
      continueSession_cases config surroundings service auth sessionId
    · rw [refused]
      exact .inl ⟨session, stored, rfl, rfl⟩
    · rw [stored] at found
      cases found
      rw [done]
      exact asItWas_finish isOpen service.world rfl rfl rfl
    · rw [stored] at found
      cases found
      rw [continueSession_submits stored submits]
      split
      next stage identity world passed =>
        have isStage := checkStage_stage submits.names passed
        rw [isStage] at passed
        exact absurd ⟨submits, world, passed⟩ (noPass authType identity)
      next body world failed =>
        exact asItWas_finish isOpen world rfl rfl rfl
      · exact .inl ⟨session, stored, rfl, rfl⟩
  · intro auth sessionId session stage identity isAct stored passes
    cases isAct
    obtain ⟨submits, world, passed⟩ := passes
    have result := @continueSession_submits config surroundings service session
      auth stage sessionId stored submits
    change checkStage config surroundings auth session.identity service.world =
      .ok (stage, identity) world at passed
    rw [passed] at result
    change Leaves _ sessionId
      (continueSession config surroundings service auth sessionId).2
      (.proceeded
        (continueSession config surroundings service auth sessionId).1)
    rw [result]
    exact finish_leaves service sessionId _ world
  · intro sessionId session later stored found notCreated
    cases act with
    | create flows params identity =>
        rcases createSession_stored found with old | new
        · have same := old.2.symm.trans stored
          cases same
          exact prefix_rfl
        · exact absurd ⟨⟨flows, params, identity, rfl⟩, new.1.symm⟩ notCreated
    | proceed auth key =>
        obtain ⟨_, earlier, wasStored, grows⟩ :=
          continueSession_keeps opened found
        have same := wasStored.symm.trans stored
        cases same
        exact grows
    | elsewhere world =>
        have same := (show service.sessions sessionId = some later from
          found).symm.trans stored
        cases same
        exact prefix_rfl
  · intro sessionId later found
    exact (opened.perform _ sessionId later found).once

theorem Consumes.gone {input : Input}
    (consumes : Consumes (entryOf (perform config) service input) sessionId) :
    (∃ session, service.sessions sessionId = some session) ∧
      (perform config service input).1.sessions sessionId = none := by
  obtain ⟨auth, identity, isAct, isOutput⟩ := consumes
  obtain ⟨surroundings, act⟩ := input
  cases isAct
  have passed : (continueSession config surroundings service auth
      sessionId).1 = .ok identity := by
    injection isOutput
  exact continueSession_gone passed

theorem AllOpen.absent (opened : AllOpen service) {input : Input}
    (absent : service.sessions sessionId = none)
    (notCreated : ¬ creates input sessionId) :
    (Uiaa.perform config service input).1.sessions sessionId = none := by
  obtain ⟨surroundings, act⟩ := input
  cases found : (Uiaa.perform config service
      { surroundings, act }).1.sessions sessionId with
  | none => rfl
  | some later =>
      have stored : ∃ session, service.sessions sessionId = some session := by
        cases act with
        | create flows params identity =>
            rcases createSession_stored found with old | new
            · exact ⟨later, old.2⟩
            · exact absurd ⟨⟨flows, params, identity, rfl⟩, new.1.symm⟩
                notCreated
        | proceed auth key =>
            obtain ⟨_, earlier, wasStored, _⟩ :=
              continueSession_keeps opened found
            exact ⟨earlier, wasStored⟩
        | elsewhere world => exact ⟨later, found⟩
      obtain ⟨session, isStored⟩ := stored
      rw [absent] at isStored
      cases isStored

/-- A session that was consumed is gone until one is created under its id. -/
def ConsumedGone (history : List (Entry Service Input Output))
    (service : Service) : Prop :=
  ∀ earlier first middle sessionId, history = earlier ++ first :: middle →
    Consumes first sessionId →
    (∀ entry ∈ middle, ¬ creates entry.input sessionId) →
    service.sessions sessionId = none

theorem Reaches.consumedGone {world : World}
    {history : List (Entry Service Input Output)}
    (reaches : Reaches (perform config) { sessions := fun _ => none, world }
      history service) : AllOpen service ∧ ConsumedGone history service := by
  refine reaches.invariant (fun history service =>
    AllOpen service ∧ ConsumedGone history service) ?_ ?_
    (Always.of_forall_mem (fun entry _ => trivial))
  · refine ⟨fun key session found => absurd found (by simp), ?_⟩
    intro earlier first middle sessionId split
    exact absurd split.symm (by simp)
  · intro history service input ⟨opened, gone⟩ _
    refine ⟨opened.perform input, ?_⟩
    intro earlier first middle sessionId split consumes notCreated
    rcases snoc_split split with isLast | isEarlier
    · rw [isLast.2.2] at consumes
      exact consumes.gone.2
    · obtain ⟨rest, isMiddle, sameHistory⟩ := isEarlier
      rw [isMiddle] at notCreated
      have absent := gone earlier first rest sessionId sameHistory consumes
        (fun entry member => notCreated entry (mem_append_left _ member))
      exact opened.absent absent
        (notCreated _ (mem_append_right _ mem_cons_self))

/-- In every order of calls, a stage that fails leaves the completed stages
and the identity alone, one that passes is added once and stays, and a session
is consumed once. -/
theorem uiaaSessions_disciplined {world : World}
    {history : List (Entry Service Input Output)} {service : Service}
    (reaches : Reaches (perform config) { sessions := fun _ => none, world }
      history service) :
    (∀ entry ∈ history, Disciplined config entry) ∧
      ∀ earlier first middle second later sessionId,
        history = earlier ++ first :: (middle ++ second :: later) →
        Consumes first sessionId → Consumes second sessionId →
        ∃ entry ∈ middle, creates entry.input sessionId := by
  constructor
  · intro entry member
    obtain ⟨earlier, later, split⟩ := append_of_mem member
    obtain ⟨inner, isEntry⟩ := Library.Reaches.entry reaches split
    rw [isEntry]
    exact (Reaches.consumedGone inner).1.disciplined entry.input
  · intro earlier first middle second later sessionId split consumesFirst
      consumesSecond
    by_contra none
    have regrouped : history = (earlier ++ first :: middle) ++
        second :: later := by
      rw [split, append_assoc, cons_append]
    obtain ⟨inner, isEntry⟩ := Library.Reaches.entry reaches regrouped
    rw [isEntry] at consumesSecond
    obtain ⟨session, stored⟩ := consumesSecond.gone.1
    have absent := (Reaches.consumedGone inner).2 earlier first middle
      sessionId rfl consumesFirst
      (fun entry member created => none ⟨entry, member, created⟩)
    rw [absent] at stored
    cases stored

end

def malloryInput (act : Act) : Input where
  surroundings := plainSurroundings
  act := act

def malloryActs : List Input :=
  [malloryInput (.create [{ stages := [.password, .terms] }] "null" none),
    malloryInput (.proceed
      (.password (some "uiaa") (some (.userIdOrLocalpart "mallory")) "guess")
      "uiaa"),
    malloryInput (.proceed malloryAuth "uiaa"),
    malloryInput (.proceed (.terms (some "uiaa")) "uiaa")]

theorem malloryActs_disciplined :
    let start : Service := { sessions := fun _ => none, world := malloryWorld }
    let ran := run (perform plainConfig) start malloryActs
    (∀ entry ∈ ran.1, Disciplined plainConfig entry) ∧
      ∀ earlier first middle second later sessionId,
        ran.1 = earlier ++ first :: (middle ++ second :: later) →
        Consumes first sessionId → Consumes second sessionId →
        ∃ entry ∈ middle, creates entry.input sessionId := by
  intro start ran
  exact uiaaSessions_disciplined
    (reaches_run (perform plainConfig) start malloryActs)

/-- The last of these calls gets the identity. -/
example : (run (perform plainConfig)
      { sessions := fun _ => none, world := malloryWorld }
      malloryActs).1.getLast?.map Entry.output =
    some (.proceeded (.ok (Identity.fromUserId mallory))) := by
  rfl

end ArcanaServer.Uiaa
