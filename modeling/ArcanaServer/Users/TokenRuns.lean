import ArcanaServer.Users.Accounts

namespace ArcanaServer.Users

open Library Function RegistrationTokens List

/-! Registration tokens over a whole run.  The stages of registrations are
checked one after the other under the lock of the sessions, between the read
and the write of a token too; administrators do not take this lock. -/

/-- A stage whose token is validated and not yet marked as used.  `issue` is
the number of the creation whose row was read. -/
structure StageUse where
  valid : ValidToken
  issue : Nat
  deriving DecidableEq, Repr

/-- `issueOf` is the number of the creation that the row of a token goes back
to, and `expires` what a creation was made with.  `completed` are the creations
whose tokens completed a stage.  A token is `revoked` from a revocation that
succeeds to the next creation under its text. -/
structure TokenWorld where
  table : RegistrationTokens
  firstAccountToken : Option String
  issues : Nat
  issueOf : String → Nat
  expires : Nat → Option TokenExpires
  stage : Option StageUse
  revoking : List ValidToken
  completed : List Nat
  revoked : String → Bool

inductive TokenAction where
  | issue (creator : UserId) (expires : Option TokenExpires) (token : String)
  | beginStage (token : String) (now : Nat)
  | completeStage
  | beginRevoke (token : String) (now : Nat)
  | revoke (index : Nat)
  | endFirstRun
  deriving DecidableEq, Repr

inductive TokenOutcome where
  | issued (token : String) (info : DatabaseTokenInfo)
  | refused (kind : ErrorKind) (message : String)
  | completed
  | revoked (result : Except Error Unit)
  | nothing

namespace TokenWorld

variable (static : StaticTokens)

def start (firstAccountToken : Option String) : TokenWorld where
  table := fun _ => none
  firstAccountToken := firstAccountToken
  issues := 0
  issueOf := fun _ => 0
  expires := fun _ => none
  stage := none
  revoking := []
  completed := []
  revoked := fun _ => false

variable (world : TokenWorld)

def validate (now : Nat) (token : String) : Option ValidToken :=
  world.table.validateToken static world.firstAccountToken now token

/-- Only a token of the database has uses. -/
def complete (use : StageUse) : TokenWorld :=
  match use.valid.source with
  | .database _ =>
      { world with
        table := world.table.markTokenAsUsed use.valid
        issueOf := Function.update world.issueOf use.valid.token use.issue
        stage := none
        completed := world.completed ++ [use.issue] }
  | _ =>
      { world with
        table := world.table.markTokenAsUsed use.valid
        stage := none }

def step : TokenAction → TokenWorld × TokenOutcome
  | .issue creator expires token =>
      let ((token, info), table) := world.table.issueToken token creator expires
      ({ world with
        table
        issues := world.issues + 1
        issueOf := Function.update world.issueOf token world.issues
        expires := Function.update world.expires world.issues expires
        revoked := Function.update world.revoked token false },
        .issued token info)
  | .beginStage token now =>
      match world.stage with
      | some _ => (world, .nothing)
      | none =>
          match world.validate static now token with
          | none =>
              (world, .refused .forbidden "Invalid registration token")
          | some valid =>
              ({ world with stage := some ⟨valid, world.issueOf token⟩ },
                .nothing)
  | .completeStage =>
      match world.stage with
      | none => (world, .nothing)
      | some use => (world.complete use, .completed)
  | .beginRevoke token now =>
      match world.validate static now token with
      | none => (world, .revoked (.error (.other
          "This token does not exist or has already expired.")))
      | some valid =>
          ({ world with revoking := world.revoking ++ [valid] }, .nothing)
  | .revoke index =>
      match world.revoking[index]? with
      | none => (world, .nothing)
      | some valid =>
          let (result, table) := world.table.revokeToken valid
          ({ world with
            table
            revoking := world.revoking.eraseIdx index
            revoked :=
              if result.isOk then
                Function.update world.revoked valid.token true
              else world.revoked }, .revoked result)
  | .endFirstRun => ({ world with firstAccountToken := none }, .nothing)

/-- A token completes no more stages than it may, and none once it is
revoked. -/
structure Bounded : Prop where
  uses : ∀ issue maxUses, maxUses ≤ 2 ^ 64 - 1 →
    world.expires issue = some (.afterUses maxUses) →
    world.completed.count issue ≤ maxUses
  revoked : ∀ token now, world.revoked token = true →
    world.validate static now token = none

end TokenWorld

/-- A use after which the row is no longer valid. -/
def DatabaseTokenInfo.isLastUse (info : DatabaseTokenInfo) : Bool :=
  match info.expires with
  | some (.afterUses maxUses) => maxUses ≤ min (info.uses + 1) (2 ^ 64 - 1)
  | _ => false

def DatabaseTokenInfo.isUsedUp (info : DatabaseTokenInfo) : Bool :=
  match info.expires with
  | some (.afterUses maxUses) => maxUses ≤ info.uses
  | _ => false

def ValidTokenSource.isLastUse : ValidTokenSource → Bool
  | .database info => info.isLastUse
  | _ => true

namespace TokenWorld

/-- No stage is about to write the token back that is revoked, unless it is
the last use of the token. -/
def Orderly (world : TokenWorld) : TokenAction → Prop
  | .revoke index => ∀ valid ∈ world.revoking[index]?, ∀ use ∈ world.stage,
      use.valid.token = valid.token → use.valid.source.isLastUse = true
  | .issue _ _ _ | .beginStage _ _ | .completeStage | .beginRevoke _ _
  | .endFirstRun => True

instance (world : TokenWorld) : DecidablePred world.Orderly
  | .revoke index => inferInstanceAs (Decidable
      (∀ valid ∈ world.revoking[index]?, ∀ use ∈ world.stage,
        use.valid.token = valid.token → use.valid.source.isLastUse = true))
  | .issue _ _ _ | .beginStage _ _ | .completeStage | .beginRevoke _ _
  | .endFirstRun => isTrue trivial

section

variable {static : StaticTokens} {world : TokenWorld} {now : Nat}
  {token : String} {valid : ValidToken} {info : DatabaseTokenInfo}

theorem validate_database (found : world.validate static now token =
      some valid) (source : valid.source = .database info) :
    world.firstAccountToken = none ∧
      static.iterate.find? (fun valid => valid.token = token) = none ∧
      world.table token = some info ∧ info.isValid now = true ∧
      valid.token = token := by
  unfold validate validateToken at found
  split at found
  · split at found
    · cases found
      cases source
    · cases found
  next noFirst =>
    split at found
    next other isStatic =>
      cases found
      have member := List.mem_of_find?_eq_some isStatic
      rw [StaticTokens.iterate, mem_append] at member
      rcases member with member | member <;>
        obtain ⟨_, _, rfl⟩ := mem_map.mp member <;>
        cases source
    next noStatic =>
      split at found
      next row isRow =>
        split at found
        next isValid =>
          cases found
          cases source
          exact ⟨noFirst, noStatic, isRow, isValid, rfl⟩
        · cases found
      · cases found

theorem validate_eq_none (noFirst : world.firstAccountToken = none)
    (noStatic : static.iterate.find? (fun valid => valid.token = token) = none)
    (noRow : ∀ info, world.table token = some info →
      info.isUsedUp = true) : world.validate static now token = none := by
  unfold validate validateToken
  simp only [noFirst, noStatic]
  cases found : world.table token with
  | none => rfl
  | some info =>
      have usedUp := noRow info found
      have invalid : info.isValid now = false := by
        unfold DatabaseTokenInfo.isUsedUp at usedUp
        unfold DatabaseTokenInfo.isValid
        split at usedUp
        next expires =>
          rw [expires]
          simpa using usedUp
        · cases usedUp
      simp only [invalid, Bool.false_eq_true, if_false]

end

structure GoesBack (world : TokenWorld) (info : DatabaseTokenInfo)
    (issue : Nat) : Prop where
  known : issue < world.issues
  expires : info.expires = world.expires issue
  counted : ∀ maxUses, maxUses ≤ 2 ^ 64 - 1 →
    info.expires = some (.afterUses maxUses) →
    world.completed.count issue ≤ info.uses

structure Counted (world : TokenWorld) : Prop where
  rows : ∀ token info, world.table token = some info →
    world.GoesBack info (world.issueOf token)
  place : ∀ one two left right, world.table one = some left →
    world.table two = some right →
    world.issueOf one = world.issueOf two → one = two
  stage : ∀ use info, world.stage = some use →
    use.valid.source = .database info → world.GoesBack info use.issue
  open_ : ∀ use info maxUses, world.stage = some use →
    use.valid.source = .database info →
    info.expires = some (.afterUses maxUses) → info.uses < maxUses
  writes : ∀ use info, world.stage = some use →
    use.valid.source = .database info → ∀ token row,
      world.table token = some row → world.issueOf token = use.issue →
      token = use.valid.token
  completed : ∀ issue ∈ world.completed, issue < world.issues
  limit : ∀ issue maxUses, maxUses ≤ 2 ^ 64 - 1 →
    world.expires issue = some (.afterUses maxUses) →
    world.completed.count issue ≤ maxUses

section

variable {static : StaticTokens} {world : TokenWorld}

section

variable {table : RegistrationTokens} {valid : ValidToken}

theorem markTokenAsUsed_database {info : DatabaseTokenInfo}
    (source : valid.source = .database info) :
    table.markTokenAsUsed valid = update table valid.token
      (some { info with uses := min (info.uses + 1) (2 ^ 64 - 1) }) := by
  rw [markTokenAsUsed, source]

theorem markTokenAsUsed_static
    (noInfo : ∀ info, valid.source = .database info → False) :
    table.markTokenAsUsed valid = table := by
  unfold markTokenAsUsed
  split
  next info source => exact (noInfo info source).elim
  · rfl

theorem lookup_revokeToken {token : String} {info : DatabaseTokenInfo}
    (found : (table.revokeToken valid).2 token = some info) :
    table token = some info := by
  unfold revokeToken at found
  split at found
  · exact found
  · simp only [update_apply] at found
    split at found
    · cases found
    · exact found
  · exact found
  · exact found

end

theorem Counted.of_fewer {after : TokenWorld} (counted : world.Counted)
    (rows : ∀ token info, after.table token = some info →
      world.table token = some info)
    (stage : ∀ use, after.stage = some use → world.stage = some use)
    (issues : after.issues = world.issues)
    (issueOf : after.issueOf = world.issueOf)
    (expires : after.expires = world.expires)
    (completed : after.completed = world.completed) : after.Counted := by
  have keeps : ∀ info issue, world.GoesBack info issue →
      after.GoesBack info issue := by
    intro info issue old
    exact ⟨issues ▸ old.known, expires ▸ old.expires, completed ▸ old.counted⟩
  refine ⟨?_, ?_, ?_, ?_, ?_, ?_, ?_⟩
  · intro token info found
    rw [issueOf]
    exact keeps _ _ (counted.rows token info (rows token info found))
  · intro one two left right isLeft isRight same
    rw [issueOf] at same
    exact counted.place one two left right (rows one left isLeft)
      (rows two right isRight) same
  · exact fun use info isStage source =>
      keeps _ _ (counted.stage use info (stage use isStage) source)
  · exact fun use info maxUses isStage =>
      counted.open_ use info maxUses (stage use isStage)
  · intro use info isStage source token row found same
    rw [issueOf] at same
    exact counted.writes use info (stage use isStage) source token row
      (rows token row found) same
  · rw [completed, issues]
    exact counted.completed
  · rw [completed, expires]
    exact counted.limit

section

variable (counted : world.Counted)
include counted

theorem Counted.issue (creator : UserId) (expires : Option TokenExpires)
    (token : String) :
    (world.step static (.issue creator expires token)).1.Counted := by
  have fresh : ∀ issue < world.issues,
      update world.expires world.issues expires issue =
        world.expires issue :=
    fun issue below => update_of_ne (Nat.ne_of_lt below) _ _
  have keeps : ∀ info issue, world.GoesBack info issue →
      (world.step static (.issue creator expires token)).1.GoesBack info
        issue := by
    intro info issue old
    exact ⟨Nat.lt_succ_of_lt old.known,
      old.expires.trans (fresh issue old.known).symm, old.counted⟩
  have unused : world.completed.count world.issues = 0 := count_eq_zero.mpr
      (fun member => Nat.lt_irrefl _ (counted.completed _ member))
  have cases_ : ∀ other info, update world.table token
        (some ⟨creator, 0, expires⟩) other = some info →
      (other = token ∧ info = ⟨creator, 0, expires⟩ ∧
        update world.issueOf token world.issues other = world.issues) ∨
      (world.table other = some info ∧
        update world.issueOf token world.issues other =
          world.issueOf other) := by
    intro other info found
    rw [update_apply] at found
    split at found
    next same =>
      cases found
      exact .inl ⟨same, rfl, by rw [same, update_self]⟩
    next differs => exact .inr ⟨found, update_of_ne differs _ _⟩
  refine ⟨?_, ?_, ?_, counted.open_, ?_, ?_, ?_⟩
  · intro other info found
    rcases cases_ other info found with ⟨_, rfl, isNew⟩ | ⟨old, isOld⟩
    · change TokenWorld.GoesBack _ _
        (update world.issueOf token world.issues other)
      rw [isNew]
      exact ⟨Nat.lt_succ_self _,
        (update_self world.issues expires world.expires).symm,
        fun _ _ _ => Nat.le_of_eq unused⟩
    · have back := keeps info _ (counted.rows other info old)
      rw [← isOld] at back
      exact back
  · intro one two left right isLeft isRight same
    change update world.issueOf token world.issues one =
      update world.issueOf token world.issues two at same
    rcases cases_ one left isLeft with ⟨oneNew, -, newLeft⟩ | ⟨old, oldLeft⟩
    · rcases cases_ two right isRight with ⟨twoNew, -, -⟩ | ⟨older, oldRight⟩
      · exact oneNew.trans twoNew.symm
      · rw [newLeft, oldRight] at same
        exact absurd same.symm
          (Nat.ne_of_lt (counted.rows two right older).known)
    · rcases cases_ two right isRight with ⟨-, -, newRight⟩ | ⟨older, oldRight⟩
      · rw [oldLeft, newRight] at same
        exact absurd same (Nat.ne_of_lt (counted.rows one left old).known)
      · rw [oldLeft, oldRight] at same
        exact counted.place one two left right old older same
  · exact fun use info isStage source =>
      keeps info _ (counted.stage use info isStage source)
  · intro use info isStage source other row found same
    change update world.issueOf token world.issues other = use.issue at same
    rcases cases_ other row found with ⟨-, -, isNew⟩ | ⟨old, isOld⟩
    · rw [isNew] at same
      exact absurd same.symm
        (Nat.ne_of_lt (counted.stage use info isStage source).known)
    · rw [isOld] at same
      exact counted.writes use info isStage source other row old same
  · exact fun issue member => Nat.lt_succ_of_lt (counted.completed issue member)
  · intro issue maxUses fits isExpires
    change update world.expires world.issues expires issue = _ at isExpires
    by_cases isNew : issue = world.issues
    · rw [isNew]
      exact le_trans (Nat.le_of_eq unused) (Nat.zero_le _)
    · rw [update_of_ne isNew] at isExpires
      exact counted.limit issue maxUses fits isExpires

theorem Counted.beginStage {token : String} {now : Nat} {valid : ValidToken}
    (found : world.validate static now token = some valid) :
    Counted { world with
      stage := some ⟨valid, world.issueOf token⟩ } := by
  refine ⟨?_, counted.place, ?_, ?_, ?_, counted.completed, counted.limit⟩
  · intro other info isRow
    have old := counted.rows other info isRow
    exact ⟨old.known, old.expires, old.counted⟩
  · intro use info isStage source
    cases isStage
    obtain ⟨-, -, isRow, -, -⟩ := validate_database found source
    have old := counted.rows token info isRow
    exact ⟨old.known, old.expires, old.counted⟩
  · intro use info maxUses isStage source expires
    cases isStage
    obtain ⟨-, -, -, isValid, -⟩ := validate_database found source
    rw [DatabaseTokenInfo.isValid, expires] at isValid
    simpa using isValid
  · intro use info isStage source other row isRow same
    cases isStage
    obtain ⟨-, -, isOwn, -, isToken⟩ := validate_database found source
    exact (counted.place other token row info isRow isOwn same).trans
      isToken.symm

theorem Counted.complete {use : StageUse} (isStage : world.stage = some use) :
    (world.complete use).Counted := by
  unfold TokenWorld.complete
  split
  next info source =>
    have own := counted.stage use info isStage source
    rw [markTokenAsUsed_database source]
    have more : ∀ maxUses, maxUses ≤ 2 ^ 64 - 1 →
        info.expires = some (.afterUses maxUses) →
        (world.completed ++ [use.issue]).count use.issue ≤
          min (info.uses + 1) (2 ^ 64 - 1) := by
      intro maxUses fits expires
      have before := own.counted maxUses fits expires
      have below := counted.open_ use info maxUses isStage source expires
      rw [count_append, count_singleton_self]
      omega
    have others : ∀ issue, issue ≠ use.issue →
        (world.completed ++ [use.issue]).count issue =
          world.completed.count issue := by
      intro issue differs
      rw [count_append, count_singleton]
      simp [Ne.symm differs]
    have cases_ : ∀ token row, update world.table use.valid.token
          (some { info with uses := min (info.uses + 1) (2 ^ 64 - 1) })
          token = some row →
        (token = use.valid.token ∧
          row = { info with uses := min (info.uses + 1) (2 ^ 64 - 1) } ∧
          update world.issueOf use.valid.token use.issue token = use.issue) ∨
        (world.table token = some row ∧
          update world.issueOf use.valid.token use.issue token =
            world.issueOf token ∧ world.issueOf token ≠ use.issue) := by
      intro token row found
      rw [update_apply] at found
      split at found
      next same =>
        cases found
        exact .inl ⟨same, rfl, by rw [same, update_self]⟩
      next differs =>
        exact .inr ⟨found, update_of_ne differs _ _, fun same => differs
            (counted.writes use info isStage source token row found same)⟩
    refine ⟨?_, ?_, fun _ _ none_ => (by cases none_),
      fun _ _ _ none_ => (by cases none_),
      fun _ _ none_ => (by cases none_), ?_, ?_⟩
    · intro token row found
      change TokenWorld.GoesBack _ _
        (update world.issueOf use.valid.token use.issue token)
      rcases cases_ token row found with ⟨-, rfl, isOwn⟩ | ⟨old, isOld, apart⟩
      · rw [isOwn]
        exact ⟨own.known, own.expires, more⟩
      · rw [isOld]
        have back := counted.rows token row old
        refine ⟨back.known, back.expires, fun maxUses fits expires => ?_⟩
        exact le_trans (Nat.le_of_eq (others _ apart))
          (back.counted maxUses fits expires)
    · intro one two left right isLeft isRight same
      change update world.issueOf use.valid.token use.issue one =
        update world.issueOf use.valid.token use.issue two at same
      rcases cases_ one left isLeft with ⟨isOne, -, newLeft⟩ |
        ⟨old, oldLeft, apart⟩
      · rcases cases_ two right isRight with ⟨isTwo, -, -⟩ |
          ⟨older, oldRight, apart⟩
        · exact isOne.trans isTwo.symm
        · rw [newLeft, oldRight] at same
          exact absurd same.symm apart
      · rcases cases_ two right isRight with ⟨-, -, newRight⟩ |
          ⟨older, oldRight, -⟩
        · rw [oldLeft, newRight] at same
          exact absurd same apart
        · rw [oldLeft, oldRight] at same
          exact counted.place one two left right old older same
    · intro issue member
      rcases mem_append.mp member with old | new
      · exact counted.completed issue old
      · exact mem_singleton.mp new ▸ own.known
    · intro issue maxUses fits expires
      by_cases isOwn : issue = use.issue
      · subst isOwn
        have isInfo := own.expires.trans expires
        have below := counted.open_ use info maxUses isStage source isInfo
        have counts := more maxUses fits isInfo
        simp only
        omega
      · exact le_trans (Nat.le_of_eq (others issue isOwn))
          (counted.limit issue maxUses fits expires)
  next noInfo =>
    rw [markTokenAsUsed_static noInfo]
    exact counted.of_fewer (fun _ _ => id) (fun _ none_ => by cases none_) rfl
      rfl rfl rfl

theorem Counted.step (action : TokenAction) :
    (world.step static action).1.Counted := by
  cases action with
  | issue creator expires token =>
      exact counted.issue creator expires token
  | beginStage token now =>
      simp only [TokenWorld.step]
      split
      · exact counted
      · split
        · exact counted
        next found => exact counted.beginStage found
  | completeStage =>
      simp only [TokenWorld.step]
      split
      · exact counted
      next isStage => exact counted.complete isStage
  | beginRevoke token now =>
      simp only [TokenWorld.step]
      split
      · exact counted
      · exact counted.of_fewer (fun _ _ => id) (fun _ => id) rfl rfl rfl rfl
  | revoke index =>
      simp only [TokenWorld.step]
      split
      · exact counted
      next valid found =>
        refine counted.of_fewer (fun token info isRow => ?_) (fun _ => id)
          rfl rfl rfl rfl
        exact lookup_revokeToken isRow
  | endFirstRun =>
      exact counted.of_fewer (fun _ _ => id) (fun _ => id) rfl rfl rfl rfl

end

/-- No other kind of token has the text of a token that is revoked or about to
be, and what is left of a revoked token is used up. -/
structure Gone (static : StaticTokens) (world : TokenWorld) : Prop where
  revoked : ∀ token, world.revoked token = true →
    world.firstAccountToken = none ∧
      static.iterate.find? (fun valid => valid.token = token) = none
  rows : ∀ token info, world.revoked token = true →
    world.table token = some info → info.isUsedUp = true
  revoking : ∀ valid ∈ world.revoking, ∀ info,
    valid.source = .database info → world.firstAccountToken = none ∧
      static.iterate.find? (fun other => other.token = valid.token) = none
  stage : ∀ use, world.stage = some use → world.revoked use.valid.token = true →
    use.valid.source.isLastUse = true

section

variable (gone : world.Gone static)
include gone

theorem Gone.validate {token : String} (revoked : world.revoked token = true)
    (now : Nat) :
    world.validate static now token = none :=
  validate_eq_none (gone.revoked token revoked).1 (gone.revoked token revoked).2
    (fun info found => gone.rows token info revoked found)

theorem Gone.issue (creator : UserId) (expires : Option TokenExpires)
    (token : String) :
    (world.step static (.issue creator expires token)).1.Gone static := by
  have others : ∀ other, update world.revoked token false other = true →
      other ≠ token ∧ world.revoked other = true := by
    intro other revoked
    rw [update_apply] at revoked
    split at revoked
    · cases revoked
    next differs => exact ⟨differs, revoked⟩
  refine ⟨?_, ?_, gone.revoking, ?_⟩
  · exact fun other revoked => gone.revoked other (others other revoked).2
  · intro other info revoked found
    obtain ⟨differs, old⟩ := others other revoked
    exact gone.rows other info old ((update_of_ne differs _ _).symm.trans found)
  · exact fun use isStage revoked =>
      gone.stage use isStage (others _ revoked).2

theorem Gone.beginStage {token : String} {now issue : Nat} {valid : ValidToken}
    (found : world.validate static now token = some valid) :
    Gone static { world with stage := some ⟨valid, issue⟩ } := by
  refine ⟨gone.revoked, gone.rows, gone.revoking, ?_⟩
  intro use isStage revoked
  cases isStage
  cases source : valid.source with
  | database info =>
      obtain ⟨-, -, -, -, isToken⟩ := validate_database found source
      have absent := gone.validate revoked now
      simp only [isToken, found] at absent
      cases absent
  | config | firstAccount | tokenFile => rfl

theorem Gone.complete {use : StageUse} (isStage : world.stage = some use) :
    (world.complete use).Gone static := by
  unfold TokenWorld.complete
  split
  next info source =>
    rw [markTokenAsUsed_database source]
    refine ⟨gone.revoked, ?_, gone.revoking, fun _ none_ => by cases none_⟩
    intro token row revoked found
    simp only [update_apply] at found
    split at found
    next same =>
      cases found
      rw [same] at revoked
      have last := gone.stage use isStage revoked
      rw [source] at last
      exact last
    · exact gone.rows token row revoked found
  next noInfo =>
    rw [markTokenAsUsed_static noInfo]
    exact ⟨gone.revoked, gone.rows, gone.revoking,
      fun _ none_ => by cases none_⟩

theorem Gone.revoke {index : Nat} (orderly : world.Orderly (.revoke index)) :
    (world.step static (.revoke index)).1.Gone static := by
  simp only [TokenWorld.step]
  split
  · exact gone
  next valid found =>
    have fewer : ∀ other ∈ world.revoking.eraseIdx index,
        other ∈ world.revoking :=
      fun other member => mem_of_mem_eraseIdx member
    have refused : ∀ error,
        (world.table.revokeToken valid) = (.error error, world.table) →
        Gone static { world with
          table := (world.table.revokeToken valid).2
          revoking := world.revoking.eraseIdx index
          revoked :=
            if (world.table.revokeToken valid).1.isOk then
              update world.revoked valid.token true
            else world.revoked } := by
      intro error isError
      rw [isError]
      exact ⟨gone.revoked, gone.rows,
        fun other member => gone.revoking other (fewer other member),
        gone.stage⟩
    cases source : valid.source with
    | config | firstAccount | tokenFile =>
        exact refused _ (by rw [revokeToken, source])
    | database info =>
        have gives : world.table.revokeToken valid =
            (.ok (), update world.table valid.token none) := by
          rw [revokeToken, source]
        have text := gone.revoking valid (mem_of_getElem? found) info source
        have cases_ : ∀ token,
            update world.revoked valid.token true token = true →
            token = valid.token ∨
              token ≠ valid.token ∧ world.revoked token = true := by
          intro token revoked
          rw [update_apply] at revoked
          split at revoked
          next same => exact .inl same
          next differs => exact .inr ⟨differs, revoked⟩
        rw [gives]
        refine ⟨?_, ?_, fun other member =>
          gone.revoking other (fewer other member), ?_⟩
        · intro token revoked
          rcases cases_ token revoked with same | old
          · exact same ▸ text
          · exact gone.revoked token old.2
        · intro token row revoked isRow
          simp only [update_apply] at isRow
          split at isRow
          · cases isRow
          next differs =>
            exact gone.rows token row
              ((cases_ token revoked).resolve_left differs).2 isRow
        · intro use isStage revoked
          rcases cases_ _ revoked with same | old
          · exact orderly valid found use isStage same
          · exact gone.stage use isStage old.2

theorem Gone.step {action : TokenAction} (orderly : world.Orderly action) :
    (world.step static action).1.Gone static := by
  cases action with
  | issue creator expires token => exact gone.issue creator expires token
  | beginStage token now =>
      simp only [TokenWorld.step]
      split
      · exact gone
      · split
        · exact gone
        next found => exact gone.beginStage found
  | completeStage =>
      simp only [TokenWorld.step]
      split
      · exact gone
      next isStage => exact gone.complete isStage
  | beginRevoke token now =>
      simp only [TokenWorld.step]
      split
      · exact gone
      next valid found =>
        refine ⟨gone.revoked, gone.rows, ?_, gone.stage⟩
        intro other member info source
        rcases mem_append.mp member with old | new
        · exact gone.revoking other old info source
        · cases mem_singleton.mp new
          obtain ⟨noFirst, noStatic, -, -, isToken⟩ :=
            validate_database found source
          rw [isToken]
          exact ⟨noFirst, noStatic⟩
  | revoke index => exact gone.revoke orderly
  | endFirstRun =>
      exact ⟨fun token revoked => ⟨rfl, (gone.revoked token revoked).2⟩,
        gone.rows, fun valid member info source =>
          ⟨rfl, (gone.revoking valid member info source).2⟩, gone.stage⟩

end

end

section

variable {static : StaticTokens} {firstAccountToken : Option String}
  {history : List (Entry TokenWorld TokenAction TokenOutcome)}
  {world : TokenWorld}

theorem counted_start : (start firstAccountToken).Counted where
  rows := fun _ _ found => by cases found
  place := fun _ _ _ _ found => by cases found
  stage := fun _ _ isStage => by cases isStage
  open_ := fun _ _ _ isStage => by cases isStage
  writes := fun _ _ isStage => by cases isStage
  completed := fun _ member => by cases member
  limit := fun _ _ _ expires => by cases expires

theorem gone_start : (start firstAccountToken).Gone static where
  revoked := fun _ revoked => by cases revoked
  rows := fun _ _ revoked => by cases revoked
  revoking := fun _ member => by cases member
  stage := fun _ isStage => by cases isStage

section

variable
  (reaches : Reaches (step static) (start firstAccountToken) history world)
include reaches

theorem counted_of_reaches : world.Counted := by
  induction reaches with
  | start => exact counted_start
  | next action _ ih => exact ih.step action

theorem bounded_of_orderly
    (orderly : Always (fun _ entry => entry.before.Orderly entry.input)
      history) : world.Bounded static := by
  have gone : world.Gone static :=
    reaches.invariant (fun _ world => world.Gone static) gone_start
      (fun _ _ _ gone orderly => gone.step orderly) orderly
  exact ⟨(counted_of_reaches reaches).limit,
    fun token now revoked => gone.validate revoked now⟩

end

end

def noStatic : StaticTokens where
  configFileToken := none
  fromFile := []

def admin : UserId := ⟨"admin", "server"⟩

def usedThenRevoked : List TokenAction :=
  [.issue admin (some (.afterUses 2)) "token", .beginStage "token" 0,
    .completeStage, .beginRevoke "token" 0, .revoke 0]

theorem usedThenRevoked_bounded :
    (run (step noStatic) (start none) usedThenRevoked).2.revoked "token" =
        true ∧
      (run (step noStatic) (start none) usedThenRevoked).2.Bounded
        noStatic := by
  refine ⟨by decide, bounded_of_orderly
    (reaches_run (step noStatic) (start none) usedThenRevoked)
    (Always.of_forall_mem ?_)⟩
  decide

def revokedInUse : List TokenAction :=
  [.issue admin (some (.afterUses 2)) "token", .beginRevoke "token" 0,
    .beginStage "token" 0, .revoke 0, .completeStage]

theorem revokedInUse_returns : Reaches (step noStatic) (start none)
        (run (step noStatic) (start none) revokedInUse).1
        (run (step noStatic) (start none) revokedInUse).2 ∧
      ¬ (run (step noStatic) (start none) revokedInUse).2.Bounded noStatic := by
  refine ⟨reaches_run _ _ revokedInUse, fun bounded => ?_⟩
  have absent := bounded.revoked "token" 0 (by decide)
  revert absent
  decide

end TokenWorld

end ArcanaServer.Users
