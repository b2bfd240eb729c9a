import ArcanaServer.Rooms.UpdateMembership
import ArcanaServer.StateRes.RoomVersion

namespace ArcanaServer.Rooms

open Library ArcanaServer.Matrix Function MemberTables

namespace MemberTables

section

variable (tables : MemberTables) (userId : UserId) (roomId : RoomId)

def isJoined : Bool := decide ((userId, roomId) ∈ tables.cache.userroomidJoined)

def isLeft : Bool :=
  decide ((userId, roomId) ∈ tables.cache.userroomidLeftstate)

def isKnocked : Bool :=
  decide ((userId, roomId) ∈ tables.cache.userroomidKnockedstate)

def isInvited : Bool :=
  decide ((userId, roomId) ∈ tables.cache.userroomidInvitestate)

def onceJoined : Bool := tables.roomuseroncejoinedids (userId, roomId)

def userMembership : Option MembershipState :=
  match tables.isJoined userId roomId, tables.isLeft userId roomId,
    tables.isKnocked userId roomId, tables.isInvited userId roomId,
    tables.onceJoined userId roomId with
  | true, _, _, _, _ => some .join
  | _, true, _, _, _ => some .leave
  | _, _, true, _, _ => some .knock
  | _, _, _, true, _ => some .invite
  | false, false, false, false, true => some .ban
  | _, _, _, _, _ => none

end

/-- What the query makes of how the user stands in the room. -/
def reading (once : Bool) : Option Membership → Option MembershipState
  | some .joined => some .join
  | some .left => some .leave
  | some .knocked => some .knock
  | some .invited => some .invite
  | none => if once then some .ban else none

theorem userMembership_eq {tables : MemberTables} {standings : Standings}
    (represents : tables.cache.Represents standings) (userId : UserId)
    (roomId : RoomId) :
    tables.userMembership userId roomId =
      reading (tables.onceJoined userId roomId)
        (standings (userId, roomId)) := by
  have joined := represents .joined (userId, roomId)
  have left := represents .left (userId, roomId)
  have knocked := represents .knocked (userId, roomId)
  have invited := represents .invited (userId, roomId)
  unfold StateCache.hasRow at joined left knocked invited
  unfold userMembership isJoined isLeft isKnocked isInvited
  simp only [joined, left, knocked, invited]
  cases standings (userId, roomId) with
  | none => cases tables.onceJoined userId roomId <;> rfl
  | some membership => cases membership <;> rfl

end MemberTables

inductive MembershipCall where
  | updateMembership (roomId : RoomId) (userId : UserId) (pdu : Pdu)
      (updateJoinedCount : Bool)
  | forget (roomId : RoomId) (userId : UserId)

abbrev MembershipInput := MemberServices × MembershipCall

section

variable (ruma : Ruma)

def MemberTables.perform (tables : MemberTables) :
    MembershipInput → MemberTables × Except MemberError Unit
  | (services, .updateMembership roomId userId pdu counts) =>
      match services.updateMembership ruma roomId userId pdu counts tables with
      | .ok _ after => (after, .ok ())
      | .error error after => (after, .error error)
  | (_, .forget roomId userId) =>
      (tables.onCache fun cache => cache.forget roomId userId, .ok ())

def remembered (services : MemberServices) (key : UserRoom)
    (last : Option MembershipState) :
    MembershipState → Option MembershipState
  | .leave => if services.forgetsOnLeave key then none else some .leave
  | .ban => if services.forgetsOnLeave key then none else some .ban
  | .join => some .join
  | .invite => some .invite
  | .knock => some .knock
  | .custom _ => last

/-- The membership of the last applied event until the room is forgotten. -/
def lastMembership (key : UserRoom) (last : Option MembershipState) :
    MembershipInput → Except MemberError Unit → Option MembershipState
  | (services, .updateMembership roomId userId pdu _), .ok () =>
      if key = (userId, roomId) then
        match ruma.roomMember pdu.content with
        | some membership => remembered services key last membership
        | none => last
      else last
  | (_, .updateMembership ..), .error _ => last
  | (_, .forget roomId userId), _ =>
      if key = (userId, roomId) then none else last

/-- The event can be told from the tables that it leaves.  A ban looks like a
leave, and whoever has joined once looks banned as soon as no table has a row
for the user.  A knock is not entered at all. -/
def MemberTables.Tells (tables : MemberTables) (services : MemberServices)
    (roomId : RoomId) (userId : UserId) (pdu : Pdu) :
    MembershipState → Prop
  | .join => services.Accepts tables roomId userId pdu .join ∨
      tables.isJoined userId roomId ∨ tables.isLeft userId roomId ∨
      tables.isKnocked userId roomId ∨ tables.isInvited userId roomId
  | .invite => True
  | .leave => services.forgetsOnLeave (userId, roomId) = true →
      tables.onceJoined userId roomId = false
  | .ban => services.forgetsOnLeave (userId, roomId) = true ∧
      tables.onceJoined userId roomId = false
  | .knock => tables.isKnocked userId roomId
  | .custom _ => True

def MemberTables.Fits (tables : MemberTables) (key : UserRoom) :
    MembershipInput → Prop
  | (services, .updateMembership roomId userId pdu _) =>
      key = (userId, roomId) →
        ∀ membership, ruma.roomMember pdu.content = some membership →
          tables.Tells services roomId userId pdu membership
  | (_, .forget roomId userId) =>
      key = (userId, roomId) → tables.isJoined userId roomId = false ∧
        tables.isKnocked userId roomId = false ∧
        tables.isInvited userId roomId = false ∧
        tables.onceJoined userId roomId = false

end

/-- A join is noted even if it is refused afterwards. -/
def noteJoin (key : UserRoom) (noted : UserRoom → Bool) :
    MembershipState → UserRoom → Bool
  | .join => Function.update noted key true
  | _ => noted

namespace MemberServices

variable {ruma : Ruma} {services : MemberServices} {roomId : RoomId}
  {userId : UserId} {pdu : Pdu} {tables : MemberTables}
  {membership : MembershipState}

def Leaves {α : Type} (noted : UserRoom → Bool) :
    EStateM.Result MemberError MemberTables α → Prop :=
  Meets (fun _ after => after.roomuseroncejoinedids = noted)
    (fun _ after => after.roomuseroncejoinedids = noted)

section

variable (services : MemberServices) (roomId : RoomId) (userId : UserId)

theorem joinFirst_notes (tables : MemberTables) :
    Leaves (update tables.roomuseroncejoinedids (userId, roomId) true)
      (services.joinFirst roomId userId tables) := by
  cases once : tables.roomuseroncejoinedids (userId, roomId) with
  | true =>
      rw [joinFirst_known once, ← once, update_eq_self]
      exact rfl
  | false =>
      rw [joinFirst_new once]
      exact Meets.liftExcept (fun _ _ => rfl) (fun _ _ => rfl)

theorem markAsInvited_notes (pdu : Pdu) (tables : MemberTables) :
    Leaves tables.roomuseroncejoinedids
      (services.markAsInvited roomId userId pdu tables) := by
  unfold MemberServices.markAsInvited
  simp only [get_bind]
  exact Meets.lift_bind (fun _ _ => rfl) (fun _ _ => rfl)

theorem applyMembership_notes (pdu : Pdu) (membership : MembershipState)
    (tables : MemberTables) :
    Leaves (noteJoin (userId, roomId) tables.roomuseroncejoinedids membership)
      (services.applyMembership roomId userId pdu membership tables) := by
  cases membership with
  | join =>
      exact Meets.bind (joinFirst_notes services roomId userId tables)
        (fun _ middle noted => noted)
  | invite => exact markAsInvited_notes services roomId userId pdu tables
  | leave | ban | knock | custom name => exact rfl

end

theorem updateMembership_notes {counts : Bool}
    (content : ruma.roomMember pdu.content = some membership) :
    Leaves (noteJoin (userId, roomId) tables.roomuseroncejoinedids membership)
      (services.updateMembership ruma roomId userId pdu counts tables) := by
  have read : services.membershipOf ruma pdu = .ok membership := by
    simp only [membershipOf, content]
  obtain ⟨created, isCreated, _, once, _⟩ :=
    createRemote_spec services userId tables
  have begins : (liftExcept (services.membershipOf ruma pdu) :
      Updating MembershipState) tables = .ok membership tables := by
    rw [read]
    rfl
  unfold updateMembership
  rw [bind_of_ok _ begins, bind_of_ok _ isCreated, ← once]
  refine Meets.bind (applyMembership_notes services roomId userId pdu
    membership created) (fun _ middle noted => ?_)
  cases counts with
  | true | false => exact noted

theorem updateMembership_unread {counts : Bool}
    (content : ruma.roomMember pdu.content = none) :
    ∃ error, services.updateMembership ruma roomId userId pdu counts tables =
      .error error tables := by
  refine ⟨.badJson ("Failed to deserialize content into type: " ++
    services.contentError pdu.content), ?_⟩
  unfold updateMembership membershipOf
  rw [content]
  rfl

end MemberServices

def Standings.settle (standings : Standings) (services : MemberServices)
    (roomId : RoomId) (userId : UserId) (pdu : Pdu)
    (membership : MembershipState) : Standings :=
  match services.callFor roomId userId pdu membership with
  | some call => standings.step services.toCacheServices call
  | none => standings

section

variable {services : MemberServices} {roomId : RoomId} {userId : UserId}
  {pdu : Pdu} {tables : MemberTables} {cache : StateCache}
  {standings : Standings}

theorem StateCache.Represents.settle (represents : cache.Represents standings)
    (membership : MembershipState) :
    (services.settle roomId userId pdu membership cache).Represents
      (standings.settle services roomId userId pdu membership) := by
  unfold MemberServices.settle Standings.settle
  cases services.callFor roomId userId pdu membership with
  | none => exact represents
  | some call => exact represents.step services.toCacheServices call

theorem StateCache.Represents.recount {counts : Bool}
    (represents : cache.Represents standings) :
    (services.recount roomId counts cache).Represents standings := by
  intro membership key
  refine Iff.trans ?_ (represents membership key)
  cases counts <;> cases membership <;> exact Iff.rfl

theorem settle_own {membership : MembershipState}
    (accepts : services.Accepts tables roomId userId pdu membership) :
    standings.settle services roomId userId pdu membership (userId, roomId) =
      if MemberServices.Ignored membership then standings (userId, roomId)
      else services.standingOf (userId, roomId) membership := by
  cases membership with
  | join => exact update_self _ _ _
  | invite =>
      have unblocked : ¬ services.blocksInvite pdu.sender userId := accepts
      change (if _ then _ else _ : Standings) (userId, roomId) = _
      rw [if_neg unblocked]
      exact update_self _ _ _
  | leave | ban => exact update_self _ _ _
  | knock | custom name => rfl

theorem settle_other {key : UserRoom} {membership : MembershipState}
    (other : key ≠ (userId, roomId)) :
    standings.settle services roomId userId pdu membership key =
      standings key := by
  cases membership with
  | join => exact update_of_ne other _ _
  | invite =>
      change (if _ then _ else _ : Standings) key = _
      split
      · rfl
      · exact update_of_ne other _ _
  | leave | ban => exact update_of_ne other _ _
  | knock | custom name => rfl

theorem noteJoin_other {key own : UserRoom} {noted : UserRoom → Bool}
    (membership : MembershipState) (other : key ≠ own) :
    noteJoin own noted membership key = noted key := by
  cases membership with
  | join => exact update_of_ne other _ _
  | invite | leave | ban | knock | custom name => rfl

end

section

variable {ruma : Ruma} {tables : MemberTables} {standings : Standings}

/-- How the user stands after the call, and whether the user has joined
once. -/
structure After (after : MemberTables) (standings : Standings)
    (noted : UserRoom → Bool) : Prop where
  represents : after.cache.Represents standings
  noted : after.roomuseroncejoinedids = noted

theorem After.reading {after : MemberTables} {noted : UserRoom → Bool}
    (left : After after standings noted) (key : UserRoom) :
    after.userMembership key.1 key.2 =
      reading (noted key) (standings key) := by
  rw [userMembership_eq left.represents, ← left.noted]
  rfl

theorem updateMembership_after {services : MemberServices} {roomId : RoomId}
    {userId : UserId} {pdu : Pdu} {counts : Bool} {membership : MembershipState}
    (represents : tables.cache.Represents standings)
    (content : ruma.roomMember pdu.content = some membership) :
    let performed := tables.perform ruma
      (services, .updateMembership roomId userId pdu counts)
    After performed.1
        (if services.Accepts tables roomId userId pdu membership
          then standings.settle services roomId userId pdu membership
          else standings)
        (noteJoin (userId, roomId) tables.roomuseroncejoinedids membership) ∧
      if services.Accepts tables roomId userId pdu membership
        then performed.2 = .ok () else ∃ error, performed.2 = .error error := by
  have spec := MemberServices.updateMembership_spec ruma services roomId userId
    pdu counts tables
  have notes := @MemberServices.updateMembership_notes ruma services roomId
    userId pdu tables membership counts content
  unfold perform
  dsimp only
  cases result : services.updateMembership ruma roomId userId pdu counts
      tables with
  | ok value after =>
      rw [result] at spec notes
      obtain ⟨_, other, applies, settled⟩ := spec
      have same : other = membership :=
        Option.some.inj (applies.1.symm.trans content)
      rw [same] at applies settled
      rw [if_pos applies.2, if_pos applies.2]
      refine ⟨⟨?_, notes⟩, rfl⟩
      rw [settled]
      exact (represents.settle membership).recount
  | error error after =>
      rw [result] at spec notes
      obtain ⟨kept, _, refused⟩ := spec
      have notAccepted :
          ¬ services.Accepts tables roomId userId pdu membership :=
        fun accepts => refused membership ⟨content, accepts⟩
      rw [if_neg notAccepted, if_neg notAccepted]
      refine ⟨⟨?_, notes⟩, error, rfl⟩
      rw [kept]
      exact represents

section

variable (represents : tables.cache.Represents standings) (userId : UserId)
  (roomId : RoomId)

include represents

theorem isJoined_eq : tables.isJoined userId roomId =
    decide (standings (userId, roomId) = some .joined) :=
  decide_eq_decide.mpr (represents .joined (userId, roomId))

theorem isLeft_eq : tables.isLeft userId roomId =
    decide (standings (userId, roomId) = some .left) :=
  decide_eq_decide.mpr (represents .left (userId, roomId))

theorem isKnocked_eq : tables.isKnocked userId roomId =
    decide (standings (userId, roomId) = some .knocked) :=
  decide_eq_decide.mpr (represents .knocked (userId, roomId))

theorem isInvited_eq : tables.isInvited userId roomId =
    decide (standings (userId, roomId) = some .invited) :=
  decide_eq_decide.mpr (represents .invited (userId, roomId))

end

variable {services : MemberServices} {roomId : RoomId} {userId : UserId}
  {pdu : Pdu}

section

variable {membership : MembershipState}
  (represents : tables.cache.Represents standings)
include represents

theorem refused_tells_iff
    (refused : ¬ services.Accepts tables roomId userId pdu membership) :
    reading
        (noteJoin (userId, roomId) tables.roomuseroncejoinedids membership
          (userId, roomId)) (standings (userId, roomId)) =
      reading (tables.onceJoined userId roomId)
        (standings (userId, roomId)) ↔
      tables.Tells services roomId userId pdu membership := by
  cases membership with
  | join =>
      have never : tables.onceJoined userId roomId = false :=
        Bool.eq_false_iff.mpr (fun once => refused (.inl once))
      unfold MemberTables.Tells noteJoin
      dsimp only
      rw [update_self, never, isJoined_eq represents,
        isLeft_eq represents, isKnocked_eq represents,
        isInvited_eq represents]
      cases standings (userId, roomId) with
      | none => simp [reading, refused]
      | some membership =>
          cases membership <;> simp [reading]
  | invite => exact iff_of_true rfl trivial
  | leave | ban | knock | custom name => exact absurd trivial refused

theorem accepted_tells_iff
    (accepts : services.Accepts tables roomId userId pdu membership) :
    reading
        (noteJoin (userId, roomId) tables.roomuseroncejoinedids membership
          (userId, roomId))
        (if MemberServices.Ignored membership then standings (userId, roomId)
          else services.standingOf (userId, roomId) membership) =
      remembered services (userId, roomId)
        (reading (tables.onceJoined userId roomId)
          (standings (userId, roomId))) membership ↔
      tables.Tells services roomId userId pdu membership := by
  cases membership with
  | join => exact iff_of_true rfl (.inl accepts)
  | invite => exact iff_of_true rfl trivial
  | leave | ban =>
      change reading (tables.onceJoined userId roomId)
        (if services.forgetsOnLeave (userId, roomId) then none
          else some .left) = (if _ then _ else _) ↔ _
      unfold MemberTables.Tells
      cases services.forgetsOnLeave (userId, roomId) <;>
        cases tables.onceJoined userId roomId <;>
        simp [reading]
  | knock =>
      change reading (tables.onceJoined userId roomId)
        (standings (userId, roomId)) = some .knock ↔ _
      unfold MemberTables.Tells
      dsimp only
      rw [isKnocked_eq represents]
      cases standings (userId, roomId) with
      | none =>
          cases tables.onceJoined userId roomId <;> simp [reading]
      | some membership =>
          cases membership <;> simp [reading]
  | custom name => exact iff_of_true rfl trivial

end

theorem perform_unread {services : MemberServices} {roomId : RoomId}
    {userId : UserId} {pdu : Pdu} {counts : Bool}
    (content : ruma.roomMember pdu.content = none) :
    ∃ error, tables.perform ruma
      (services, .updateMembership roomId userId pdu counts) =
        (tables, .error error) := by
  obtain ⟨error, failed⟩ := @MemberServices.updateMembership_unread ruma services
    roomId userId pdu tables counts content
  refine ⟨error, ?_⟩
  unfold perform
  dsimp only
  rw [failed]

/-- After a call the query tells the last membership of a user in a room, if
it told it before, exactly when the call fits. -/
theorem perform_reads_iff (represents : tables.cache.Represents standings)
    (key : UserRoom) (input : MembershipInput) :
    (tables.perform ruma input).1.userMembership key.1 key.2 =
        lastMembership ruma key (tables.userMembership key.1 key.2) input
          (tables.perform ruma input).2 ↔
      tables.Fits ruma key input := by
  rw [userMembership_eq represents]
  obtain ⟨services, call⟩ := input
  cases call with
  | forget roomId userId =>
      have left : After
          (tables.perform ruma (services, .forget roomId userId)).1
          (standings.forget (userId, roomId)) tables.roomuseroncejoinedids :=
        ⟨represents.forget userId roomId, rfl⟩
      change userMembership _ _ _ = (if _ then _ else _) ↔ _
      rw [left.reading key]
      unfold MemberTables.Fits
      by_cases own : key = (userId, roomId)
      · rw [if_pos own, own]
        simp only [true_imp_iff]
        rw [isJoined_eq represents, isKnocked_eq represents,
          isInvited_eq represents]
        unfold Standings.forget
        rw [update_self]
        change reading (tables.onceJoined userId roomId) _ = _ ↔ _
        cases standings (userId, roomId) with
        | none =>
            cases tables.onceJoined userId roomId <;>
              simp [reading]
        | some membership =>
            cases membership <;> cases tables.onceJoined userId roomId <;>
              simp [reading]
      · unfold Standings.forget
        rw [if_neg own, update_of_ne own]
        exact iff_of_true rfl (fun same => absurd same own)
  | updateMembership roomId userId pdu counts =>
      cases content : ruma.roomMember pdu.content with
      | none =>
          obtain ⟨error, performed⟩ :=
            @perform_unread ruma tables services roomId userId pdu counts content
          rw [performed]
          refine iff_of_true (userMembership_eq represents _ _) ?_
          intro _ membership readable
          rw [content] at readable
          cases readable
      | some membership =>
          obtain ⟨left, output⟩ := @updateMembership_after ruma tables standings
            services roomId userId pdu counts membership represents content
          rw [left.reading key]
          by_cases own : key = (userId, roomId)
          · have fits : tables.Fits ruma key
                (services, .updateMembership roomId userId pdu counts) ↔
                tables.Tells services roomId userId pdu membership := by
              constructor
              · exact fun fit => fit own membership content
              · intro tells _ other readable
                have same := Option.some.inj (content.symm.trans readable)
                rw [← same]
                exact tells
            rw [fits, own]
            by_cases accepts :
                services.Accepts tables roomId userId pdu membership
            · rw [if_pos accepts] at output ⊢
              rw [output, settle_own accepts,
                ← accepted_tells_iff represents accepts]
              simp only [lastMembership, content, if_true]
            · rw [if_neg accepts] at output ⊢
              obtain ⟨error, failed⟩ := output
              rw [failed, ← refused_tells_iff represents accepts]
              exact Iff.rfl
          · have fits : tables.Fits ruma key
                (services, .updateMembership roomId userId pdu counts) :=
              fun same => absurd same own
            refine iff_of_true ?_ fits
            rw [noteJoin_other membership own]
            by_cases accepts :
                services.Accepts tables roomId userId pdu membership
            · rw [if_pos accepts] at output ⊢
              rw [output, settle_other own]
              simp only [lastMembership, own, if_false]
              rfl
            · rw [if_neg accepts] at output ⊢
              obtain ⟨error, failed⟩ := output
              rw [failed]
              rfl

theorem perform_represents (represents : tables.cache.Represents standings)
    (input : MembershipInput) :
    ∃ later, (tables.perform ruma input).1.cache.Represents later := by
  obtain ⟨services, call⟩ := input
  cases call with
  | forget roomId userId => exact ⟨_, represents.forget userId roomId⟩
  | updateMembership roomId userId pdu counts =>
      cases content : ruma.roomMember pdu.content with
      | none =>
          obtain ⟨error, performed⟩ :=
            @perform_unread ruma tables services roomId userId pdu counts content
          rw [performed]
          exact ⟨standings, represents⟩
      | some membership =>
          obtain ⟨left, _⟩ := @updateMembership_after ruma tables standings
            services roomId userId pdu counts membership represents content
          exact ⟨_, left.represents⟩

end

section

variable (ruma : Ruma) (key : UserRoom)

def ReadsThroughout (tables : MemberTables) (last : Option MembershipState) :
    List MembershipInput → Prop
  | [] => True
  | input :: rest =>
      let (after, output) := tables.perform ruma input
      let now := lastMembership ruma key last input output
      after.userMembership key.1 key.2 = now ∧ ReadsThroughout after now rest

def FitsThroughout (tables : MemberTables) : List MembershipInput → Prop
  | [] => True
  | input :: rest =>
      tables.Fits ruma key input ∧
        FitsThroughout (tables.perform ruma input).1 rest

variable {ruma key}

theorem reads_iff_fits (inputs : List MembershipInput) :
    ∀ {tables : MemberTables} {standings : Standings},
      tables.cache.Represents standings →
      (ReadsThroughout ruma key tables (tables.userMembership key.1 key.2)
          inputs ↔
        FitsThroughout ruma key tables inputs) := by
  induction inputs with
  | nil => exact fun _ => Iff.rfl
  | cons input rest ih =>
      intro tables standings represents
      unfold ReadsThroughout FitsThroughout
      dsimp only
      rw [← perform_reads_iff represents key input]
      refine and_congr_right (fun reads => ?_)
      obtain ⟨later, represented⟩ :=
        @perform_represents ruma tables standings represents input
      rw [← reads]
      exact ih represented

/-- The query tells the membership of the last applied event of a user in a
room, and none after the room is forgotten, exactly in the runs whose calls
fit. -/
theorem userMembership_reads_iff (ruma : Ruma) (key : UserRoom)
    (inputs : List MembershipInput) :
    ReadsThroughout ruma key .empty none inputs ↔
      FitsThroughout ruma key .empty inputs := by
  obtain ⟨standings, represents⟩ :=
    StateCache.empty_consistent.exclusive.represents
  exact @reads_iff_fits ruma key inputs .empty standings represents

end

namespace BannedAlice

def memberPdu (sender : UserId) (membership : String) : Pdu :=
  { Pdu.message ("$" ++ membership) "!room:here" sender with
    kind := .roomMember, content := .obj [("membership", .str membership)],
    stateKey := some "@alice:here" }

def inputs : List MembershipInput :=
  [(plainMembers, .updateMembership "!room:here" "@alice:here"
      (memberPdu "@alice:here" "join") true),
    (plainMembers, .updateMembership "!room:here" "@alice:here"
      (memberPdu "@bob:here" "ban") true)]

/-- The query tells that she has left. -/
theorem ban_reads_leave :
    ¬ ReadsThroughout StateRes.plainIdentifiers ("@alice:here", "!room:here")
      .empty none inputs := by
  intro reads
  exact absurd reads.2.1 (by decide +kernel)

end BannedAlice

end ArcanaServer.Rooms
