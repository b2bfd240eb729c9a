import ArcanaServer.Library.SortedTable
import ArcanaServer.Users.Accounts
import Mathlib.Data.String.Basic

namespace ArcanaServer.Users

open Library SortedTable

/-! Password reset tokens.  Instants are counted in nanoseconds. -/

structure ResetTokenInfo where
  user : UserId
  issuedAt : Nat

def maxTokenAge : Nat := 60 * 60 * 1000000000

def ResetTokenInfo.isValid (info : ResetTokenInfo) (now : Nat) : Bool :=
  info.issuedAt ≤ now && now - info.issuedAt < maxTokenAge

structure ValidResetToken where
  token : String
  info : ResetTokenInfo

inductive ResetError where
  | notFound (message : String)
  | other (message : String)

def Accounts.isDeactivated (accounts : Accounts) (userId : UserId) :
    Except ResetError Bool :=
  match accounts.passwordHash userId with
  | none => .error (.notFound "User does not exist.")
  | some hash => .ok (hash = "")

structure ResetWorld where
  passwordresettokenInfo : SortedTable String ResetTokenInfo
  accounts : Accounts

namespace ResetWorld

def start (accounts : Accounts) : ResetWorld where
  passwordresettokenInfo := .empty
  accounts := accounts

abbrev ResetTokens := SortedTable String ResetTokenInfo

variable (tokens : ResetTokens) (user : UserId)

def findTokenForUser : Option (String × ResetTokenInfo) :=
  tokens.rows.find? fun row => row.2.user = user

/-- What is left of the table for the new token of the user. -/
def withoutExisting : ResetTokens :=
  match findTokenForUser tokens user with
  | some (existingToken, _) => tokens.erase existingToken
  | none => tokens

variable (settings : Settings) (serverUser : UserId) (world : ResetWorld)

/-- `token` is the random text that is drawn for the new token. -/
def issueToken (token : String) (now : Nat) (userId : UserId) :
    Except ResetError ValidResetToken × ResetWorld :=
  let refuse (message : String) := (.error (.other message), world)
  if !settings.grammar.userIsLocal userId then
    refuse ("Cannot issue a password reset token for remote user " ++
      userId.toString)
  else if userId = serverUser then
    refuse "Cannot issue a password reset token for the server user"
  else if (world.accounts.origin userId).getD "password" ≠ "password" then
    refuse ("Cannot issue a password reset token for non-internal user " ++
      userId.toString)
  else match world.accounts.isDeactivated userId with
    | .error error => (.error error, world)
    | .ok true =>
        refuse ("Cannot issue a password reset token for deactivated user " ++
          userId.toString)
    | .ok false =>
        let info : ResetTokenInfo := { user := userId, issuedAt := now }
        (.ok ⟨token, info⟩, { world with
          passwordresettokenInfo :=
            (withoutExisting world.passwordresettokenInfo userId).put token
              info })

def checkToken (now : Nat) (token : String) :
    Option ValidResetToken × ResetWorld :=
  match world.passwordresettokenInfo.get token with
  | none => (none, world)
  | some info =>
      if info.isValid now then (some ⟨token, info⟩, world)
      else (none, { world with
        passwordresettokenInfo := world.passwordresettokenInfo.erase token })

def consumeToken (outside : Outside) (now : Nat) (valid : ValidResetToken)
    (newPassword : String) : Except Error Unit × ResetWorld :=
  if valid.info.isValid now then
    let (answer, accounts) := world.accounts.setPassword settings outside
      valid.info.user (some newPassword)
    (answer, {
      passwordresettokenInfo :=
        world.passwordresettokenInfo.erase valid.token
      accounts })
  else (.ok (), world)

end ResetWorld

/-- Between two calls the rest of the server may change the accounts. -/
inductive ResetCall where
  | issueToken (token : String) (now : Nat) (userId : UserId)
  | checkToken (now : Nat) (token : String)
  | consumeToken (outside : Outside) (now : Nat) (valid : ValidResetToken)
      (newPassword : String)
  | elsewhere (accounts : Accounts)

inductive ResetAnswer where
  | issued (answer : Except ResetError ValidResetToken)
  | checked (valid : Option ValidResetToken)
  | consumed (answer : Except Error Unit)
  | nothing

namespace ResetWorld

def step (settings : Settings) (serverUser : UserId) (world : ResetWorld) :
    ResetCall → ResetWorld × ResetAnswer
  | .issueToken token now userId =>
      let (answer, after) := world.issueToken settings serverUser token now
        userId
      (after, .issued answer)
  | .checkToken now token =>
      let (valid, after) := world.checkToken now token
      (after, .checked valid)
  | .consumeToken outside now valid newPassword =>
      let (answer, after) := world.consumeToken settings outside now valid
        newPassword
      (after, .consumed answer)
  | .elsewhere accounts => ({ world with accounts }, .nothing)

end ResetWorld

abbrev ResetEntry := Entry ResetWorld ResetCall ResetAnswer

namespace ValidResetToken

variable (valid : ValidResetToken)

def IssuedBy (entry : ResetEntry) : Prop := entry.output = .issued (.ok valid)

/-- The token is replaced, checked outside its hour, or used. -/
def EndedBy (entry : ResetEntry) : Prop :=
  match entry.input, entry.output with
  | _, .issued (.ok later) =>
      later.info.user = valid.info.user ∨ later.token = valid.token
  | .checkToken now token, _ =>
      token = valid.token ∧ valid.info.isValid now = false
  | .consumeToken _ now given _, _ =>
      given.token = valid.token ∧ given.info.isValid now = true
  | _, _ => False

def Stands (history : List ResetEntry) : Prop :=
  Since valid.IssuedBy valid.EndedBy history

end ValidResetToken

namespace ResetWorld

section

variable {settings : Settings} {serverUser : UserId} {world : ResetWorld}
  {accounts : Accounts} {history : List ResetEntry} {valid : ValidResetToken}

def row (valid : ValidResetToken) : String × ResetTokenInfo :=
  (valid.token, valid.info)

def OnePerUser (world : ResetWorld) : Prop :=
  ∀ one two, row one ∈ world.passwordresettokenInfo →
    row two ∈ world.passwordresettokenInfo → one.info.user = two.info.user →
    one = two

theorem mem_withoutExisting (single : world.OnePerUser) {userId : UserId} :
    row valid ∈ withoutExisting world.passwordresettokenInfo userId ↔
      row valid ∈ world.passwordresettokenInfo ∧
        valid.info.user ≠ userId := by
  unfold withoutExisting findTokenForUser
  split
  next existing info found =>
    have member := List.mem_of_find?_eq_some found
    have sameUser : info.user = userId := by
      simpa using List.find?_some found
    rw [mem_erase]
    refine and_congr_right (fun inside => not_congr ⟨?_, ?_⟩)
    · intro same
      rw [← sameUser]
      have alike : (existing, valid.info) ∈ world.passwordresettokenInfo :=
        same ▸ inside
      rw [value_unique alike member]
    · intro same
      exact congrArg ValidResetToken.token (single valid ⟨existing, info⟩ inside
        member (same.trans sameUser.symm))
  next absent =>
    refine ⟨fun inside => ⟨inside, fun same => ?_⟩, And.left⟩
    exact List.find?_eq_none.mp absent _ inside (decide_eq_true same)

theorem mem_checkToken (now : Nat) (token : String) :
    row valid ∈ (world.checkToken now token).2.passwordresettokenInfo ↔
      row valid ∈ world.passwordresettokenInfo ∧
        (token = valid.token → valid.info.isValid now = true) := by
  unfold checkToken
  split
  next absent =>
    refine ⟨fun member => ⟨member, fun same => ?_⟩, And.left⟩
    rw [same, get_eq_some.mpr member] at absent
    cases absent
  next info found =>
    have only : row valid ∈ world.passwordresettokenInfo →
        token = valid.token → valid.info = info := by
      intro member same
      exact value_unique member (same ▸ get_eq_some.mp found)
    split
    next isValid =>
      refine ⟨fun member => ⟨member, fun same => ?_⟩, And.left⟩
      rw [only member same]
      exact isValid
    next notValid =>
      rw [mem_erase]
      refine and_congr_right (fun member => ⟨?_, ?_⟩)
      · exact fun differs same => absurd same.symm differs
      · intro survives same
        rw [only member same.symm] at survives
        exact notValid (survives same.symm)

theorem mem_step (single : world.OnePerUser) (call : ResetCall) :
    row valid ∈ (step settings serverUser world
        call).1.passwordresettokenInfo ↔
      valid.IssuedBy (entryOf (step settings serverUser) world call) ∨
        row valid ∈ world.passwordresettokenInfo ∧
          ¬ valid.EndedBy (entryOf (step settings serverUser) world call) := by
  unfold ValidResetToken.IssuedBy ValidResetToken.EndedBy
  cases call with
  | issueToken token now userId =>
      simp only [entryOf, step, issueToken]
      split_ifs
      · simp
      · simp
      · simp
      · split
        · simp
        · simp
        · simp only [mem_put, mem_withoutExisting single,
            ResetAnswer.issued.injEq, Except.ok.injEq, and_assoc,
            not_or, Ne.eq_def, @eq_comm _ userId, @eq_comm _ token]
          refine or_congr_left ⟨?_, ?_⟩
          · intro same
            obtain ⟨sameToken, sameInfo⟩ := Prod.mk.inj same
            rw [← sameToken, ← sameInfo]
          · intro same
            rw [← same]
            rfl
  | checkToken now token =>
      simp [entryOf, step, mem_checkToken]
  | consumeToken outside now given newPassword =>
      simp only [entryOf, step, consumeToken]
      split
      next isValid => simp [mem_erase, isValid, row, eq_comm]
      next notValid => simp [notValid]
  | elsewhere accounts => simp [entryOf, step]

theorem OnePerUser.step (single : world.OnePerUser) (call : ResetCall) :
    (step settings serverUser world call).1.OnePerUser := by
  have apart : ∀ one two : ValidResetToken,
      one.IssuedBy (entryOf (ResetWorld.step settings serverUser) world call) →
      ¬ two.EndedBy (entryOf (ResetWorld.step settings serverUser) world
        call) → one.info.user ≠ two.info.user := by
    intro one two issued goesOn same
    unfold ValidResetToken.IssuedBy at issued
    unfold ValidResetToken.EndedBy at goesOn
    rw [issued] at goesOn
    exact goesOn (.inl same)
  intro one two isOne isTwo same
  rcases (mem_step single call).mp isOne with newOne | oldOne
  · rcases (mem_step single call).mp isTwo with newTwo | oldTwo
    · have answers := newOne.symm.trans newTwo
      exact Except.ok.inj (ResetAnswer.issued.inj answers)
    · exact absurd same (apart one two newOne oldTwo.2)
  · rcases (mem_step single call).mp isTwo with newTwo | oldTwo
    · exact absurd same.symm (apart two one newTwo oldOne.2)
    · exact single one two oldOne.1 oldTwo.1 same

/-- A user has one token at most, and the table holds the tokens that stand. -/
theorem rows_of_reaches
    (reaches : Reaches (step settings serverUser) (start accounts) history
      world) : world.OnePerUser ∧ ∀ valid : ValidResetToken,
      row valid ∈ world.passwordresettokenInfo ↔ valid.Stands history := by
  induction reaches with
  | start =>
      refine ⟨fun one two isOne => absurd isOne not_mem_empty, ?_⟩
      intro valid
      exact iff_of_false not_mem_empty not_since_nil
  | next call _ ih =>
      obtain ⟨single, rows⟩ := ih
      refine ⟨single.step call, fun valid => ?_⟩
      rw [mem_step single, rows]
      exact since_snoc.symm

theorem checkToken_eq_some {now : Nat} {token : String} :
    (world.checkToken now token).1 = some valid ↔ valid.token = token ∧
      row valid ∈ world.passwordresettokenInfo ∧
        valid.info.isValid now = true := by
  unfold checkToken
  constructor
  · intro checked
    split at checked
    · cases checked
    next info found =>
      split at checked
      next isValid =>
        rw [← Option.some.inj checked]
        exact ⟨rfl, get_eq_some.mp found, isValid⟩
      next => cases checked
  · intro accepted
    obtain ⟨sameToken, member, isValid⟩ := accepted
    rw [← sameToken, get_eq_some.mpr member]
    exact congrArg Prod.fst (if_pos isValid)

/-- After any calls a token is accepted exactly if it stands, at an instant
within its hour. -/
theorem checkToken_iff_stands (calls : List ResetCall) (now : Nat)
    (token : String) :
    let ran := run (step settings serverUser) (start accounts) calls
    (ran.2.checkToken now token).1 = some valid ↔ valid.token = token ∧
      valid.Stands ran.1 ∧ valid.info.isValid now = true := by
  intro ran
  have rows := (rows_of_reaches (reaches_run (step settings serverUser)
    (start accounts) calls)).2 valid
  rw [checkToken_eq_some, rows]

end

end ResetWorld

end ArcanaServer.Users
