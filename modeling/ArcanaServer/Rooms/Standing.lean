import ArcanaServer.Rooms.StateCache

namespace ArcanaServer.Rooms

open Library ArcanaServer.Matrix Function RoomUserKey

/-! Every user stands in a room in one way at most, and the two spellings of
each table agree. -/

inductive Membership where
  | joined
  | invited
  | left
  | knocked
  deriving DecidableEq, Repr

/-- What the state cache is for: how a user stands in a room, if at all. -/
abbrev Standings := UserRoom → Option Membership

inductive CacheCall where
  | markAsJoined (userId : UserId) (roomId : RoomId)
  | markAsLeft (userId : UserId) (roomId : RoomId) (leavePdu : Option Pdu)
  | markAsInvited (userId : UserId) (roomId : RoomId) (senderUser : UserId)
      (lastState : Option StrippedState)
      (inviteVia : Option (List ServerName))
  | markAsKnocked (userId : UserId) (roomId : RoomId)
      (knockedState : Option StrippedState)
  | forget (roomId : RoomId) (userId : UserId)

namespace CacheServices

def forgetsOnLeave (services : CacheServices) (key : UserRoom) : Bool :=
  services.userIsLocal key.1 && (services.forgetForcedUponLeave ||
    services.isBanned key.2 || services.isDisabled key.2)

def blocksInvite (services : CacheServices) (senderUser userId : UserId) :
    Prop :=
  services.inviteFilterLevel senderUser userId = .block

instance (services : CacheServices) (senderUser userId : UserId) :
    Decidable (services.blocksInvite senderUser userId) :=
  inferInstanceAs (Decidable (_ = _))

end CacheServices

namespace Standings

def forget (standings : Standings) (key : UserRoom) : Standings :=
  update standings key
    (if standings key = some .left then none else standings key)

def step (standings : Standings) (services : CacheServices) :
    CacheCall → Standings
  | .markAsJoined userId roomId =>
      update standings (userId, roomId) (some .joined)
  | .markAsLeft userId roomId _ =>
      update standings (userId, roomId)
        (if services.forgetsOnLeave (userId, roomId) then none else some .left)
  | .markAsInvited userId roomId senderUser _ _ =>
      if services.blocksInvite senderUser userId then standings
      else update standings (userId, roomId) (some .invited)
  | .markAsKnocked userId roomId _ =>
      update standings (userId, roomId) (some .knocked)
  | .forget roomId userId => standings.forget (userId, roomId)

end Standings

def RoomUserKey.ofUserRoom (key : UserRoom) : RoomUserKey := .member key.2 key.1

theorem RoomUserKey.ofUserRoom_injective : ofUserRoom.Injective := by
  intro first second same
  have parts := member.inj same
  exact Prod.ext parts.2 parts.1

namespace StateCache

/-- A call may find other answers from the services than the one before. -/
def step (cache : StateCache) :
    CacheServices × CacheCall → StateCache × Except CacheError Unit
  | (_, .markAsJoined userId roomId) =>
      (cache.markAsJoined userId roomId, .ok ())
  | (services, .markAsLeft userId roomId leavePdu) =>
      (cache.markAsLeft services userId roomId leavePdu, .ok ())
  | (services, .markAsInvited userId roomId senderUser lastState inviteVia) =>
      match cache.markAsInvited services userId roomId senderUser lastState
          inviteVia with
      | .ok invited => (invited, .ok ())
      | .error error => (cache, .error error)
  | (_, .markAsKnocked userId roomId knockedState) =>
      (cache.markAsKnocked userId roomId knockedState, .ok ())
  | (_, .forget roomId userId) => (cache.forget roomId userId, .ok ())

def hasRow (cache : StateCache) : Membership → UserRoom → Prop
  | .joined, key => key ∈ cache.userroomidJoined
  | .invited, key => key ∈ cache.userroomidInvitestate
  | .left, key => key ∈ cache.userroomidLeftstate
  | .knocked, key => key ∈ cache.userroomidKnockedstate

def Exclusive (cache : StateCache) : Prop :=
  ∀ key first second, cache.hasRow first key → cache.hasRow second key →
    first = second

structure Agreed (cache : StateCache) : Prop where
  joined : Twins Prod.swap cache.userroomidJoined cache.roomuseridJoined
  invitestate :
    Twins Prod.swap cache.userroomidInvitestate cache.roomuseridInvitecount
  invitesender :
    Twins Prod.swap cache.userroomidInvitesender cache.roomuseridInvitecount
  left : Twins Prod.swap cache.userroomidLeftstate cache.roomuseridLeftcount
  knocked : Twins ofUserRoom cache.userroomidKnockedstate
    cache.roomuseridKnockedcount

structure Consistent (cache : StateCache) : Prop where
  exclusive : cache.Exclusive
  agreed : cache.Agreed

def Represents (cache : StateCache) (standings : Standings) : Prop :=
  ∀ membership key,
    cache.hasRow membership key ↔ standings key = some membership

theorem Represents.exclusive {cache : StateCache} {standings : Standings}
    (represents : cache.Represents standings) : cache.Exclusive := by
  intro key first second one other
  have same := ((represents first key).mp one).symm.trans
    ((represents second key).mp other)
  exact Option.some.inj same

theorem Exclusive.represents {cache : StateCache}
    (exclusive : cache.Exclusive) :
    ∃ standings, cache.Represents standings := by
  have standing : ∀ key, ∃ standing, ∀ membership,
      cache.hasRow membership key ↔ standing = some membership := by
    intro key
    by_cases placed : ∃ membership, cache.hasRow membership key
    · obtain ⟨membership, row⟩ := placed
      refine ⟨some membership, fun other => ?_⟩
      constructor
      · intro also
        exact congrArg some (exclusive key _ _ row also)
      · intro same
        exact Option.some.inj same ▸ row
    · exact ⟨none, fun membership =>
        iff_of_false (fun row => placed ⟨membership, row⟩)
          (Option.some_ne_none membership).symm⟩
  choose standings exactly using standing
  exact ⟨standings, fun membership key => exactly key membership⟩

section

variable {cache : StateCache} {standings : Standings}

def Moves (before after : StateCache) (key : UserRoom)
    (target : Option Membership) : Prop :=
  ∀ membership other, after.hasRow membership other ↔
    if other = key then target = some membership
    else before.hasRow membership other

def Stands (cache : StateCache) (key : UserRoom)
    (target : Option Membership) : Prop :=
  ∀ membership, cache.hasRow membership key ↔ target = some membership

variable {after : StateCache} {key : UserRoom} {target : Option Membership}

theorem Moves.stands (moves : cache.Moves after key target) :
    after.Stands key target := by
  intro membership
  rw [moves membership key, if_pos rfl]

theorem Represents.moves (represents : cache.Represents standings)
    (moves : cache.Moves after key target) :
    after.Represents (update standings key target) := by
  intro membership other
  rw [moves membership other]
  by_cases here : other = key
  · rw [if_pos here, here, update_self]
  · rw [if_neg here, update_of_ne here]
    exact represents membership other

variable (userId : UserId) (roomId : RoomId)

theorem moves_markAsJoined :
    cache.Moves (cache.markAsJoined userId roomId) (userId, roomId)
      (some .joined) := by
  intro membership other
  by_cases here : other = (userId, roomId) <;>
    cases membership <;> simp [hasRow, markAsJoined, here]

theorem moves_markAsKnocked (knockedState : Option StrippedState) :
    cache.Moves (cache.markAsKnocked userId roomId knockedState)
      (userId, roomId) (some .knocked) := by
  intro membership other
  by_cases here : other = (userId, roomId) <;>
    cases membership <;> simp [hasRow, markAsKnocked, here]

theorem moves_leave (leavePdu : Option Pdu) :
    cache.Moves (cache.leave userId roomId leavePdu) (userId, roomId)
      (some .left) := by
  intro membership other
  by_cases here : other = (userId, roomId) <;>
    cases membership <;> simp [hasRow, leave, here]

theorem moves_markAsLeft (services : CacheServices) (userId : UserId)
    (roomId : RoomId) (leavePdu : Option Pdu) :
    cache.Moves (cache.markAsLeft services userId roomId leavePdu)
      (userId, roomId) (if services.forgetsOnLeave (userId, roomId) then none
        else some .left) := by
  have left : cache.Moves _ _ _ := moves_leave userId roomId leavePdu
  unfold StateCache.markAsLeft
  change cache.Moves (if services.forgetsOnLeave (userId, roomId) = true
    then _ else _) _ _
  split
  · intro membership other
    by_cases here : other = (userId, roomId) <;>
      cases membership <;> simp [hasRow, forget, leave, here]
  · exact left

theorem markAsInvited_ok {services : CacheServices} {after : StateCache}
    {userId senderUser : UserId} {roomId : RoomId}
    {lastState : Option StrippedState} {inviteVia : Option (List ServerName)}
    (invited : cache.markAsInvited services userId roomId senderUser lastState
      inviteVia = .ok after) :
    ¬ services.blocksInvite senderUser userId ∧
      cache.Moves after (userId, roomId) (some .invited) := by
  unfold markAsInvited at invited
  split at invited
  · cases invited
  next unblocked =>
    refine ⟨unblocked, fun membership other => ?_⟩
    split at invited <;> cases invited <;>
      by_cases here : other = (userId, roomId) <;>
      cases membership <;> simp [hasRow, addServersInviteVia, here]

theorem markAsInvited_error {services : CacheServices} {error : CacheError}
    {userId senderUser : UserId} {roomId : RoomId}
    {lastState : Option StrippedState} {inviteVia : Option (List ServerName)}
    (refused : cache.markAsInvited services userId roomId senderUser lastState
      inviteVia = .error error) :
    services.blocksInvite senderUser userId := by
  unfold markAsInvited at refused
  split at refused
  next blocked => exact blocked
  · split at refused <;> cases refused

section

variable (represents : cache.Represents standings)
include represents

theorem Represents.forget (userId : UserId) (roomId : RoomId) :
    (cache.forget roomId userId).Represents
      (standings.forget (userId, roomId)) := by
  apply represents.moves
  intro membership other
  by_cases here : other = (userId, roomId)
  · have placed := represents membership other
    subst here
    cases membership <;>
      simp only [hasRow, StateCache.forget, AList.mem_erase] at placed ⊢ <;>
      split <;> simp_all
  · cases membership <;> simp [hasRow, StateCache.forget, here]

theorem Represents.markAsLeft (services : CacheServices) (userId : UserId)
    (roomId : RoomId) (leavePdu : Option Pdu) :
    (cache.markAsLeft services userId roomId leavePdu).Represents
      (standings.step services (.markAsLeft userId roomId leavePdu)) := by
  have left := represents.moves (moves_leave userId roomId leavePdu)
  unfold StateCache.markAsLeft
  change (if services.forgetsOnLeave (userId, roomId) = true then _ else _ :
    StateCache).Represents _
  simp only [Standings.step]
  split
  · have forgotten := left.forget userId roomId
    simpa [Standings.forget] using forgotten
  · exact left

theorem Represents.step (services : CacheServices) (call : CacheCall) :
    (cache.step (services, call)).1.Represents
      (standings.step services call) := by
  cases call with
  | markAsJoined userId roomId =>
      exact represents.moves (moves_markAsJoined userId roomId)
  | markAsLeft userId roomId leavePdu =>
      exact represents.markAsLeft services userId roomId leavePdu
  | markAsInvited userId roomId senderUser lastState inviteVia =>
      simp only [StateCache.step, Standings.step]
      split
      next invited =>
        obtain ⟨unblocked, moves⟩ := markAsInvited_ok invited
        rw [if_neg unblocked]
        exact represents.moves moves
      next refused =>
        rw [if_pos (markAsInvited_error refused)]
        exact represents
  | markAsKnocked userId roomId knockedState =>
      exact represents.moves (moves_markAsKnocked userId roomId knockedState)
  | forget roomId userId =>
      exact represents.forget userId roomId

end

section

variable (agreed : cache.Agreed)
include agreed

variable (userId : UserId) (roomId : RoomId)

theorem Agreed.markAsJoined : (cache.markAsJoined userId roomId).Agreed where
  joined := agreed.joined.insert Prod.swap_injective (userId, roomId) () ()
  invitestate := agreed.invitestate.erase Prod.swap_injective (userId, roomId)
  invitesender := agreed.invitesender.erase Prod.swap_injective (userId, roomId)
  left := agreed.left.erase Prod.swap_injective (userId, roomId)
  knocked :=
    agreed.knocked.erase ofUserRoom_injective (userId, roomId)

theorem Agreed.markAsKnocked (knockedState : Option StrippedState) :
    (cache.markAsKnocked userId roomId knockedState).Agreed where
  joined := agreed.joined.erase Prod.swap_injective (userId, roomId)
  invitestate := agreed.invitestate.erase Prod.swap_injective (userId, roomId)
  invitesender := agreed.invitesender.erase Prod.swap_injective (userId, roomId)
  left := agreed.left.erase Prod.swap_injective (userId, roomId)
  knocked :=
    agreed.knocked.insert ofUserRoom_injective (userId, roomId)
      (knockedState.getD []) cache.nextCount

theorem Agreed.forget (userId : UserId) :
    (cache.forget roomId userId).Agreed where
  joined := agreed.joined
  invitestate := agreed.invitestate
  invitesender := agreed.invitesender
  left := agreed.left.erase Prod.swap_injective (userId, roomId)
  knocked := agreed.knocked

theorem Agreed.leave (leavePdu : Option Pdu) :
    (cache.leave userId roomId leavePdu).Agreed where
  joined := agreed.joined.erase Prod.swap_injective (userId, roomId)
  invitestate := agreed.invitestate.erase Prod.swap_injective (userId, roomId)
  invitesender := agreed.invitesender.erase Prod.swap_injective (userId, roomId)
  left := agreed.left.insert Prod.swap_injective (userId, roomId) leavePdu
    cache.nextCount
  knocked :=
    agreed.knocked.erase ofUserRoom_injective (userId, roomId)

theorem Agreed.markAsLeft (services : CacheServices) (userId : UserId)
    (roomId : RoomId) (leavePdu : Option Pdu) :
    (cache.markAsLeft services userId roomId leavePdu).Agreed := by
  have left := agreed.leave userId roomId leavePdu
  unfold StateCache.markAsLeft
  split
  · exact left.forget roomId userId
  · exact left

theorem Agreed.markAsInvited {services : CacheServices} {after : StateCache}
    {userId senderUser : UserId} {roomId : RoomId}
    {lastState : Option StrippedState} {inviteVia : Option (List ServerName)}
    (invited : cache.markAsInvited services userId roomId senderUser lastState
      inviteVia = .ok after) : after.Agreed := by
  unfold StateCache.markAsInvited at invited
  split at invited
  · cases invited
  · split at invited <;> cases invited <;> exact {
      joined := agreed.joined.erase Prod.swap_injective (userId, roomId)
      invitestate := agreed.invitestate.insert Prod.swap_injective
        (userId, roomId) (lastState.getD []) cache.nextCount
      invitesender := agreed.invitesender.insert Prod.swap_injective
        (userId, roomId) senderUser cache.nextCount
      left := agreed.left.erase Prod.swap_injective (userId, roomId)
      knocked := agreed.knocked.erase ofUserRoom_injective
        (userId, roomId) }

end

theorem Consistent.step (consistent : cache.Consistent)
    (input : CacheServices × CacheCall) : (cache.step input).1.Consistent := by
  obtain ⟨services, call⟩ := input
  obtain ⟨standings, represents⟩ := consistent.exclusive.represents
  refine ⟨(represents.step services call).exclusive, ?_⟩
  have agreed := consistent.agreed
  cases call with
  | markAsJoined userId roomId => exact agreed.markAsJoined userId roomId
  | markAsLeft userId roomId leavePdu =>
      exact agreed.markAsLeft services userId roomId leavePdu
  | markAsInvited userId roomId senderUser lastState inviteVia =>
      simp only [StateCache.step]
      split
      next invited => exact agreed.markAsInvited invited
      · exact agreed
  | markAsKnocked userId roomId knockedState =>
      exact agreed.markAsKnocked userId roomId knockedState
  | forget roomId userId => exact agreed.forget roomId userId

end

theorem empty_consistent : empty.Consistent where
  exclusive := by
    intro key first second one
    cases first <;> exact absurd one (AList.notMem_empty key)
  agreed := ⟨.empty, .empty, .empty, .empty, .empty⟩

/-- Where a run of the calls leads, no user stands in a room in two ways, and
each table has the same rows in both spellings. -/
theorem consistent_of_reaches {start cache : StateCache}
    (consistent : start.Consistent)
    {history : List (Entry StateCache (CacheServices × CacheCall)
      (Except CacheError Unit))}
    (reached : Reaches step start history cache) : cache.Consistent := by
  induction reached with
  | start => exact consistent
  | next input _ ih => exact ih.step input

def plainServices : CacheServices where
  userIsLocal := fun userId => userId = "@alice:here"
  serverName := fun _ => "here"
  forgetForcedUponLeave := false
  isBanned := fun roomId => roomId = "!banned:here"
  isDisabled := fun _ => false
  inviteFilterLevel := fun _ _ => .allow

theorem comings_consistent : (run step StateCache.empty
      [(plainServices, .markAsInvited "@alice:here" "!room:here" "@bob:there"
        none (some ["there"])),
      (plainServices, .markAsJoined "@alice:here" "!room:here"),
      (plainServices, .markAsKnocked "@alice:here" "!banned:here" none),
      (plainServices, .markAsLeft "@alice:here" "!banned:here" none),
      (plainServices, .markAsLeft "@alice:here" "!room:here" none),
      (plainServices, .forget "!room:here" "@alice:here")]).2.Consistent :=
  consistent_of_reaches empty_consistent (reaches_run _ _ _)

end StateCache

end ArcanaServer.Rooms
