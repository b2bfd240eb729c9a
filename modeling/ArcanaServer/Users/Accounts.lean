import ArcanaServer.Library.Handout
import ArcanaServer.Library.HashOrder
import ArcanaServer.Library.Trace
import ArcanaServer.Users.UserId
import Mathlib.Algebra.Group.Nat.Defs
import Mathlib.Logic.Function.Basic

namespace ArcanaServer.Users

abbrev DeviceId := String

inductive ErrorKind where
  | forbidden
  | invalidParam
  | invalidUsername
  | limitExceeded
  | threepidAuthFailed
  | threepidInUse
  | threepidNotFound
  | unknown
  | unrecognized
  | userDeactivated
  | userLocked
  deriving DecidableEq, Repr

inductive Error where
  | request (kind : ErrorKind) (message : String)
  | database (message : String)
  | ldap (message : String)
  | mailer (message : String)
  | featureDisabled (message : String)
  | webBadRequest (message : String)
  | other (message : String)
  | panic (message : String)
  deriving DecidableEq, Repr

structure Device where
  displayName : Option String
  lastSeenIp : Option String
  deriving DecidableEq, Repr

structure Accounts where
  passwordHash : UserId → Option String
  origin : UserId → Option String
  isLocked : UserId → Except Error Bool
  isLoginDisabled : UserId → Bool
  deviceMetadata : UserId × DeviceId → Option Device
  deviceToken : UserId × DeviceId → Option String
  tokenDevice : String → Option (UserId × DeviceId)

structure Ldap where
  enable : Bool
  ldapOnly : Bool
  bindDn : Option String

/-- What does not change while the server runs: its settings, the password
hash and the tokens of the application services. -/
structure Settings where
  grammar : Grammar
  ldapFeature : Bool
  ldap : Ldap
  verifyPassword : String → String → Bool
  appserviceToken : String → Bool

structure Outside where
  searchLdap : UserId → Except Error (List (String × Option Bool))
  authLdap : String → String → Except Error Unit
  userIsAdmin : UserId → Bool
  makeUserAdmin : UserId → Except Error Unit
  revokeAdmin : UserId → Except Error Unit
  hashPassword : String → Except String String
  randomDeviceId : DeviceId
  uniqueToken : String

namespace Accounts

variable (settings : Settings) (outside : Outside) (accounts : Accounts)

variable (userId : UserId)

def «exists» : Bool := (accounts.passwordHash userId).isSome

def setPassword (password : Option String) : Except Error Unit × Accounts :=
  if settings.ldapFeature && password.any (fun text => text != "*") &&
      accounts.origin userId = some "ldap" then
    (.error (.request .invalidParam "Cannot change password of a LDAP user"),
      accounts)
  else
    let store (hash : String) : Accounts :=
      { accounts with passwordHash :=
          Function.update accounts.passwordHash userId (some hash) }
    match password with
    | none => (.ok (), store "")
    | some password =>
        match outside.hashPassword password with
        | .error reason =>
            (.error (.request .invalidParam
              ("Password does not meet the requirements: " ++ reason)),
              accounts)
        | .ok hash => (.ok (), store hash)

def create (password origin : Option String) : Except Error Unit × Accounts :=
  if !settings.grammar.userIsLocal userId &&
      (password.isSome || origin.isSome) then
    (.error (.other
      "Cannot create a nonlocal user with a set password or origin"),
      accounts)
  else
    setPassword settings outside { accounts with
        origin := Function.update accounts.origin userId
          (some (origin.getD "password")) }
      userId password

def setToken (deviceId : DeviceId) (token : String) :
    Except Error Unit × Accounts :=
  let key := (userId, deviceId)
  if (accounts.deviceMetadata key).isNone then
    (.error (.database "User does not exist or device has no metadata."),
      accounts)
  else if settings.appserviceToken token then
    (.error (.request .invalidParam
      "Token conflicts with an existing appservice token"), accounts)
  else
    let tokenDevice := match accounts.deviceToken key with
      | some oldToken => Function.update accounts.tokenDevice oldToken none
      | none => accounts.tokenDevice
    (.ok (), { accounts with
      deviceToken := Function.update accounts.deviceToken key (some token)
      tokenDevice := Function.update tokenDevice token (some key) })

def createDevice (deviceId : DeviceId) (token : String)
    (initialDeviceDisplayName clientIp : Option String) :
    Except Error Unit × Accounts :=
  if !accounts.exists userId then
    (.error (.request .invalidParam
      ("Called create_device for non-existent user " ++ userId.toString)),
      accounts)
  else
    let device : Device :=
      { displayName := initialDeviceDisplayName, lastSeenIp := clientIp }
    setToken settings { accounts with
        deviceMetadata := Function.update accounts.deviceMetadata
          (userId, deviceId) (some device) }
      userId deviceId token

end Accounts

def asciiGrammar : Grammar where
  serverName := "server"
  validLocalpart := fun text => !text.isEmpty && !text.toList.contains ':'
  validServerName := fun text => !text.isEmpty
  validAddress := fun text =>
    text.toList.contains '@' && !text.toList.contains ':'
  validSessionId := fun text => !text.isEmpty
  validClientSecret := fun text => !text.isEmpty
  trim := id
  toLowercase := fun text => String.ofList (text.toList.map Char.toLower)

def asciiSettings : Settings where
  grammar := asciiGrammar
  ldapFeature := false
  ldap := { enable := false, ldapOnly := false, bindDn := none }
  verifyPassword := fun password hash => hash = "hash of " ++ password
  appserviceToken := fun _ => false

def withoutLdap : Outside where
  searchLdap := fun _ => .error (.featureDisabled "ldap")
  authLdap := fun _ _ => .error (.featureDisabled "ldap")
  userIsAdmin := fun _ => false
  makeUserAdmin := fun _ => .ok ()
  revokeAdmin := fun _ => .ok ()
  hashPassword := fun password => .ok ("hash of " ++ password)
  randomDeviceId := "device"
  uniqueToken := "token"

def noAccounts : Accounts where
  passwordHash := fun _ => none
  origin := fun _ => none
  isLocked := fun _ => .ok false
  isLoginDisabled := fun _ => false
  deviceMetadata := fun _ => none
  deviceToken := fun _ => none
  tokenDevice := fun _ => none

def oneAccount (userId : UserId) (password : String) : Accounts :=
  { noAccounts with
    passwordHash := fun other =>
      if other = userId then some ("hash of " ++ password) else none }

inductive TokenExpires where
  | afterUses (maxUses : Nat)
  | afterTime (expiryTime : Nat)
  deriving DecidableEq, Repr

structure DatabaseTokenInfo where
  creator : UserId
  uses : Nat
  expires : Option TokenExpires
  deriving DecidableEq, Repr

def DatabaseTokenInfo.isValid (info : DatabaseTokenInfo) (now : Nat) : Bool :=
  match info.expires with
  | some (.afterUses maxUses) => info.uses < maxUses
  | some (.afterTime expiryTime) => now ≤ expiryTime
  | none => true

inductive ValidTokenSource where
  | config
  | database (info : DatabaseTokenInfo)
  | firstAccount
  | tokenFile
  deriving DecidableEq, Repr

structure ValidToken where
  token : String
  source : ValidTokenSource
  deriving DecidableEq, Repr

/-- The token of the configuration file and those of the token file. -/
structure StaticTokens where
  configFileToken : Option String
  fromFile : List String

def StaticTokens.iterate (tokens : StaticTokens) : List ValidToken :=
  tokens.configFileToken.toList.map (fun token => ⟨token, .config⟩) ++
    tokens.fromFile.map (fun token => ⟨token, .tokenFile⟩)

abbrev RegistrationTokens := String → Option DatabaseTokenInfo

namespace RegistrationTokens

variable (table : RegistrationTokens)

def saveToken (token : String) (info : DatabaseTokenInfo) :
    RegistrationTokens :=
  Function.update table token (some info)

def issueToken (token : String) (creator : UserId)
    (expires : Option TokenExpires) :
    (String × DatabaseTokenInfo) × RegistrationTokens :=
  let info : DatabaseTokenInfo := { creator, uses := 0, expires }
  ((token, info), table.saveToken token info)

/-- While the token of the first account is set, no other token is valid. -/
def validateToken (static : StaticTokens) (firstAccountToken : Option String)
    (now : Nat) (token : String) : Option ValidToken :=
  match firstAccountToken with
  | some first =>
      if first = token then some ⟨first, .firstAccount⟩ else none
  | none =>
      match static.iterate.find? (fun valid => valid.token = token) with
      | some valid => some valid
      | none =>
          match table token with
          | some info =>
              if info.isValid now then some ⟨token, .database info⟩ else none
          | none => none

def markTokenAsUsed (valid : ValidToken) : RegistrationTokens :=
  match valid.source with
  | .database info =>
      Function.update table valid.token
        (some { info with uses := min (info.uses + 1) (2 ^ 64 - 1) })
  | _ => table

def revokeToken (valid : ValidToken) : Except Error Unit × RegistrationTokens :=
  match valid.source with
  | .config =>
      (.error (.other ("The token set in the config file cannot be revoked. " ++
        "Edit the config file to change it.")), table)
  | .database _ => (.ok (), Function.update table valid.token none)
  | .firstAccount =>
      (.error (.other "The initial setup token cannot be revoked."), table)
  | .tokenFile =>
      (.error (.other ("Tokens set in the registration token file cannot be " ++
        "revoked. Edit the registration token file and restart Continuwuity " ++
        "to change them.")), table)

end RegistrationTokens

open Library List

/-! Login tokens.  `issue` is the number of the creation that wrote the row. -/

structure LoginToken where
  expiresAt : Nat
  userId : UserId
  issue : Nat
  deriving DecidableEq, Repr

structure LoginTokens where
  logintokenExpiresatuserid : String → Option LoginToken
  issued : Nat

namespace LoginTokens

def empty : LoginTokens where
  logintokenExpiresatuserid := fun _ => none
  issued := 0

def createLoginToken (loginTokenTtl now : Nat) (tokens : LoginTokens)
    (userId : UserId) (token : String) : Nat × LoginTokens :=
  let expiresIn := loginTokenTtl
  let expiresAt := min (now + expiresIn) (2 ^ 64 - 1)
  (expiresIn, {
    logintokenExpiresatuserid := Function.update
      tokens.logintokenExpiresatuserid token
      (some ⟨expiresAt, userId, tokens.issued⟩)
    issued := tokens.issued + 1 })

def remove (tokens : LoginTokens) (token : String) : LoginTokens :=
  { tokens with
    logintokenExpiresatuserid :=
      Function.update tokens.logintokenExpiresatuserid token none }

def takeLoginToken (now : Nat) (tokens : LoginTokens) (token : String)
    (row : LoginToken) : Except Error UserId × LoginTokens :=
  if row.expiresAt < now then
    (.error (.request .forbidden "Login token is expired"),
      tokens.remove token)
  else (.ok row.userId, tokens.remove token)

def findFromLoginToken (now : Nat) (tokens : LoginTokens) (token : String) :
    Except Error UserId × LoginTokens :=
  match tokens.logintokenExpiresatuserid token with
  | none =>
      (.error (.request .forbidden "Login token is unrecognised"), tokens)
  | some row => tokens.takeLoginToken now token row

end LoginTokens

structure FindCall where
  token : String
  row : LoginToken
  deriving DecidableEq, Repr

/-- `logins` are the rows whose user a call has returned. -/
structure LoginWorld where
  tokens : LoginTokens
  finds : List FindCall
  logins : List LoginToken

inductive LoginAction where
  | create (userId : UserId) (token : String) (now : Nat)
  | find (token : String)
  | take (index now : Nat)
  deriving DecidableEq, Repr

inductive LoginOutcome where
  | created (expiresIn : Nat)
  | answered (answer : Except Error UserId)
  | nothing

namespace LoginWorld

def start : LoginWorld where
  tokens := .empty
  finds := []
  logins := []

def step (loginTokenTtl : Nat) (world : LoginWorld) :
    LoginAction → LoginWorld × LoginOutcome
  | .create userId token now =>
      let (expiresIn, tokens) :=
        world.tokens.createLoginToken loginTokenTtl now userId token
      ({ world with tokens }, .created expiresIn)
  | .find token =>
      match world.tokens.logintokenExpiresatuserid token with
      | none => (world, .answered
          (.error (.request .forbidden "Login token is unrecognised")))
      | some row =>
          ({ world with finds := world.finds ++ [⟨token, row⟩] }, .nothing)
  | .take index now =>
      match world.finds[index]? with
      | none => (world, .nothing)
      | some call =>
          let (answer, tokens) :=
            world.tokens.takeLoginToken now call.token call.row
          ({ tokens
             finds := world.finds.eraseIdx index
             logins :=
              if answer.isOk then world.logins ++ [call.row]
              else world.logins }, .answered answer)

variable (world : LoginWorld)

/-- No two calls return the user of one row. -/
def SingleUse : Prop :=
  (world.logins.map LoginToken.issue).Nodup

def Apart : LoginAction → Prop
  | .find token =>
      ∀ row ∈ world.tokens.logintokenExpiresatuserid token,
        ∀ call ∈ world.finds, call.row.issue ≠ row.issue
  | .create _ _ _ | .take _ _ => True

instance (world : LoginWorld) : DecidablePred world.Apart
  | .find token => inferInstanceAs (Decidable
      (∀ row ∈ world.tokens.logintokenExpiresatuserid token,
        ∀ call ∈ world.finds, call.row.issue ≠ row.issue))
  | .create _ _ _ | .take _ _ => isTrue trivial

def handout : Handout Nat where
  known := { issue | issue < world.tokens.issued }
  stock := { issue | ∃ token row,
    world.tokens.logintokenExpiresatuserid token = some row ∧
      row.issue = issue }
  seen := world.finds.map (fun call => call.row.issue)
  given := world.logins.map LoginToken.issue

/-- The row of a creation is under one token only, and a call removes what it
has read. -/
structure Inv : Prop where
  single : world.handout.Single
  place : ∀ one two left right,
    world.tokens.logintokenExpiresatuserid one = some left →
    world.tokens.logintokenExpiresatuserid two = some right →
    left.issue = right.issue → one = two
  calls : ∀ call ∈ world.finds, ∀ token row,
    world.tokens.logintokenExpiresatuserid token = some row →
    row.issue = call.row.issue → token = call.token

section

variable {world : LoginWorld}

theorem lookup_remove {tokens : LoginTokens} {token other : String}
    {row : LoginToken}
    (found : (tokens.remove token).logintokenExpiresatuserid other = some row) :
    tokens.logintokenExpiresatuserid other = some row ∧ other ≠ token := by
  simp only [LoginTokens.remove, Function.update_apply] at found
  split at found
  · cases found
  next differs => exact ⟨found, differs⟩

theorem Inv.create (inv : world.Inv) (loginTokenTtl now : Nat)
    (userId : UserId) (token : String) :
    Inv { world with tokens := (world.tokens.createLoginToken loginTokenTtl
      now userId token).2 } := by
  have below : ∀ other row,
      world.tokens.logintokenExpiresatuserid other = some row →
      row.issue < world.tokens.issued :=
    fun other row found => inv.single.stocked ⟨other, row, found, rfl⟩
  refine ⟨inv.single.step (.supply world.tokens.issued
    (Nat.lt_irrefl _) (fun _ => Nat.lt_succ_of_lt) (Nat.lt_succ_self _) ?_),
    ?_, ?_⟩
  · rintro issue ⟨other, row, found, same⟩
    rcases update_eq_some found with old | new
    · exact .inr ⟨other, row, old, same⟩
    · exact .inl (by rw [← same, new.2])
  · intro one two left right isLeft isRight same
    rcases update_eq_some isLeft with oldLeft | newLeft
    · rcases update_eq_some isRight with oldRight | newRight
      · exact inv.place one two left right oldLeft oldRight same
      · rw [newRight.2] at same
        exact absurd same (Nat.ne_of_lt (below one left oldLeft))
    · rcases update_eq_some isRight with oldRight | newRight
      · rw [newLeft.2] at same
        exact absurd same.symm (Nat.ne_of_lt (below two right oldRight))
      · exact newLeft.1.trans newRight.1.symm
  · intro call member other row found same
    rcases update_eq_some found with old | new
    · exact inv.calls call member other row old same
    · have known := inv.single.known call.row.issue
        (mem_append_left _ (mem_map_of_mem member))
      rw [new.2] at same
      exact absurd same.symm (Nat.ne_of_lt known)

theorem Inv.find (inv : world.Inv) {token : String} {row : LoginToken}
    (found : world.tokens.logintokenExpiresatuserid token = some row)
    (apart : world.Apart (.find token)) :
    Inv { world with finds := world.finds ++ [⟨token, row⟩] } := by
  have unseen : row.issue ∉ world.handout.seen := by
    intro member
    obtain ⟨call, isCall, same⟩ := mem_map.mp member
    exact apart row found call isCall same
  refine ⟨?_, inv.place, ?_⟩
  · have next := inv.single.step (.see row.issue ⟨token, row, found, rfl⟩
      unseen)
    simpa [handout] using next
  · intro call member other inner isInner same
    rcases mem_append.mp member with old | new
    · exact inv.calls call old other inner isInner same
    · cases mem_singleton.mp new
      exact inv.place other token inner row isInner found same

theorem Inv.take (inv : world.Inv) {index : Nat} {call : FindCall}
    (found : world.finds[index]? = some call) {logins : List LoginToken}
    (moves : logins = world.logins ∨ logins = world.logins ++ [call.row]) :
    Inv {
      tokens := world.tokens.remove call.token
      finds := world.finds.eraseIdx index
      logins } := by
  have shrinks : { issue | ∃ token row,
      (world.tokens.remove call.token).logintokenExpiresatuserid token =
        some row ∧ row.issue = issue } ⊆ world.handout.stock := by
    rintro issue ⟨token, row, isRow, same⟩
    exact ⟨token, row, (lookup_remove isRow).1, same⟩
  have seen : (world.finds.eraseIdx index).map (fun call => call.row.issue) =
      world.handout.seen.eraseIdx index :=
    (eraseIdx_map _ _ index).symm
  refine ⟨?_, ?_, ?_⟩
  · rcases moves with same | more
    · have next := inv.single.step (.giveUp index shrinks)
      simpa [handout, same, seen, LoginTokens.remove] using next
    · have next := inv.single.step (.take index call.row.issue
        (by simp [handout, found]) shrinks ?_)
      · simpa [handout, more, seen, LoginTokens.remove] using next
      · rintro ⟨token, row, isRow, same⟩
        obtain ⟨old, differs⟩ := lookup_remove isRow
        exact differs (inv.calls call (mem_of_getElem? found) token row
          old same)
  · intro one two left right isLeft isRight same
    exact inv.place one two left right (lookup_remove isLeft).1
      (lookup_remove isRight).1 same
  · intro other member token row isRow same
    exact inv.calls other (mem_of_mem_eraseIdx member) token row
      (lookup_remove isRow).1 same

theorem Inv.step (inv : world.Inv) (loginTokenTtl : Nat)
    {action : LoginAction} (apart : world.Apart action) :
    (world.step loginTokenTtl action).1.Inv := by
  cases action with
  | create userId token now =>
      exact inv.create loginTokenTtl now userId token
  | find token =>
      simp only [LoginWorld.step]
      split
      · exact inv
      next row found => exact inv.find found apart
  | take index now =>
      simp only [LoginWorld.step]
      split
      · exact inv
      next call found =>
        unfold LoginTokens.takeLoginToken
        split
        · exact inv.take found (.inl rfl)
        · exact inv.take found (.inr rfl)

end

theorem inv_start : start.Inv where
  single := {
    nodup := nodup_nil
    known := fun _ member => by cases member
    stocked := fun _ ⟨_, _, found, _⟩ => by cases found
    gone := fun _ member => by cases member }
  place := fun _ _ _ _ found => by cases found
  calls := fun _ member => by cases member

theorem singleUse_of_apart {loginTokenTtl : Nat}
    {history : List (Entry LoginWorld LoginAction LoginOutcome)}
    {world : LoginWorld}
    (reaches : Reaches (step loginTokenTtl) start history world)
    (apart : Always (fun _ entry => entry.before.Apart entry.input)
      history) : world.SingleUse := by
  have inv : world.Inv := by
    refine reaches.invariant (fun _ world => world.Inv) inv_start ?_ apart
    exact fun _ _ _ inv apart => inv.step loginTokenTtl apart
  exact inv.single.given_nodup

def alice : UserId := ⟨"alice", "server"⟩

def oneAfterTheOther : List LoginAction :=
  [.create alice "token" 0, .find "token", .take 0 1, .find "token"]

theorem oneAfterTheOther_singleUse :
    (run (step 10) start oneAfterTheOther).2.logins = [⟨10, alice, 0⟩] ∧
      (run (step 10) start oneAfterTheOther).2.SingleUse := by
  refine ⟨by decide, singleUse_of_apart
    (reaches_run (step 10) start oneAfterTheOther) (Always.of_forall_mem ?_)⟩
  decide

def atOnce : List LoginAction :=
  [.create alice "token" 0, .find "token", .find "token", .take 0 1,
    .take 0 1]

theorem atOnce_usedTwice :
    Reaches (step 10) start (run (step 10) start atOnce).1
        (run (step 10) start atOnce).2 ∧
      ¬ (run (step 10) start atOnce).2.SingleUse := by
  refine ⟨reaches_run (step 10) start atOnce, ?_⟩
  unfold SingleUse
  decide

end LoginWorld

end ArcanaServer.Users
