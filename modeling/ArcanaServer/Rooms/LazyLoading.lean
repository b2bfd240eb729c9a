import ArcanaServer.Matrix.Event
import Mathlib.Data.List.Induction
import Mathlib.Logic.Function.Basic

namespace ArcanaServer.Rooms.LazyLoading

open ArcanaServer.Matrix List Function

/-! Which members of a room were sent to a device. -/

inductive Status where
  | unseen
  | seen (token : UInt64)

inductive LazyLoadOptions where
  | disabled
  | enabled (includeRedundantMembers : Bool)

def includeRedundantMembers : LazyLoadOptions → Bool
  | .disabled => false
  | .enabled includeRedundant => includeRedundant

structure Context where
  userId : UserId
  deviceId : Option String
  roomId : RoomId
  token : Option UInt64
  options : Option LazyLoadOptions

abbrev Key := UserId × Option String × RoomId × UserId

abbrev LazyLoadedIds := Key → Option UInt64

section

variable (elementHacks : Bool) (ctx : Context)

def makeKey (sender : UserId) : Key :=
  (ctx.userId, ctx.deviceId, ctx.roomId, sender)

def reset (ids : LazyLoadedIds) : LazyLoadedIds := fun key =>
  if key = makeKey ctx key.2.2.2 then none else ids key

def intoStatus : Option UInt64 → Status
  | some seen => .seen seen
  | none => .unseen

def witness (ids : LazyLoadedIds) (sender : UserId) : Status × LazyLoadedIds :=
  let status := intoStatus (ids (makeKey ctx sender))
  match status with
  | .unseen => (status, update ids (makeKey ctx sender) (some 0))
  | .seen seen =>
      if seen = 0 then
        (status, update ids (makeKey ctx sender)
          (some (ctx.token.getD 0)))
      else (status, ids)

def retains : Status → Bool
  | .unseen => true
  | .seen seen =>
      elementHacks || ctx.options.any includeRedundantMembers ||
        (seen == 0 || ctx.token == some seen)

def retainLazyMembers : List UserId → LazyLoadedIds →
    List UserId × LazyLoadedIds
  | [], ids => ([], ids)
  | sender :: rest, ids =>
      let (status, ids) := witness ctx ids sender
      let (senders, ids) := retainLazyMembers rest ids
      (if retains elementHacks ctx status then sender :: senders else senders,
        ids)

end

/-- What becomes of the number that is stored for a sender. -/
def advance (token : Option UInt64) : Option UInt64 → UInt64
  | none => 0
  | some seen => if seen = 0 then token.getD 0 else seen

section

variable {elementHacks : Bool} {ctx : Context} {ids : LazyLoadedIds}
  {sender other : UserId} {senders : List UserId} {seen : UInt64}

theorem witness_eq : witness ctx ids sender =
    (intoStatus (ids (makeKey ctx sender)),
      update ids (makeKey ctx sender)
        (some (advance ctx.token (ids (makeKey ctx sender))))) := by
  unfold witness
  cases row : ids (makeKey ctx sender) with
  | none => rfl
  | some seen =>
      simp only [intoStatus, advance]
      split
      · rfl
      · rw [← row, update_eq_self]

theorem witness_row : (witness ctx ids other).2 (makeKey ctx sender) =
    if sender = other then some (advance ctx.token (ids (makeKey ctx sender)))
    else ids (makeKey ctx sender) := by
  rw [witness_eq]
  by_cases same : sender = other
  · rw [same, if_pos rfl]
    exact update_self ..
  · rw [if_neg same]
    refine update_of_ne (fun keys => same ?_) ..
    exact congrArg (fun key : Key => key.2.2.2) keys

theorem advance_eq {token row : Option UInt64} (positive : seen ≠ 0)
    (isSeen : advance token row = seen) :
    row = some seen ∨ row = some 0 ∧ token = some seen := by
  unfold advance at isSeen
  split at isSeen
  · exact absurd isSeen.symm positive
  · split at isSeen
    next isZero =>
      cases token with
      | none => exact absurd isSeen.symm positive
      | some token => exact .inr ⟨by rw [isZero], congrArg some isSeen⟩
    · exact .inl (congrArg some isSeen)

theorem mem_retained_of_rest {rest : List UserId}
    (inside : sender ∈ (retainLazyMembers elementHacks ctx rest
      (witness ctx ids other).2).1) :
    sender ∈ (retainLazyMembers elementHacks ctx (other :: rest) ids).1 := by
  unfold retainLazyMembers
  dsimp only
  split
  · exact mem_cons_of_mem _ inside
  · exact inside

/-- A number other than zero stays. -/
theorem retain_seen (positive : seen ≠ 0)
    (row : ids (makeKey ctx sender) = some seen) :
    (retainLazyMembers elementHacks ctx senders ids).2 (makeKey ctx sender) =
      some seen := by
  induction senders generalizing ids with
  | nil => exact row
  | cons other rest ih =>
      refine @ih (witness ctx ids other).2 ?_
      rw [witness_row, row, advance, if_neg positive, ite_self]

theorem retain_stored (positive : seen ≠ 0)
    (row : (retainLazyMembers elementHacks ctx senders ids).2
      (makeKey ctx sender) = some seen) :
    ids (makeKey ctx sender) = some seen ∨ ctx.token = some seen ∧
      sender ∈ (retainLazyMembers elementHacks ctx senders ids).1 := by
  induction senders generalizing ids with
  | nil => exact .inl row
  | cons other rest ih =>
      rcases @ih (witness ctx ids other).2 row with before | ⟨isToken, inside⟩
      · rw [witness_row] at before
        split at before
        next same =>
          rcases advance_eq positive (Option.some.inj before) with
            stored | ⟨isZero, isToken⟩
          · exact .inl stored
          · refine .inr ⟨isToken, ?_⟩
            unfold retainLazyMembers
            rw [same] at isZero ⊢
            simp [witness_eq, isZero, intoStatus, retains]
        · exact .inl before
      · exact .inr ⟨isToken, mem_retained_of_rest inside⟩

/-- A sender is left out only for a number that is stored, and no call with
that number as its token leaves the sender out. -/
theorem retain_left_out (listed : sender ∈ senders)
    (leftOut : sender ∉ (retainLazyMembers elementHacks ctx senders ids).1) :
    ∃ seen, seen ≠ 0 ∧ ids (makeKey ctx sender) = some seen ∧
      ctx.token ≠ some seen := by
  induction senders generalizing ids with
  | nil => cases listed
  | cons other rest ih =>
      by_cases same : sender = other
      · unfold retainLazyMembers at leftOut
        rw [← same, witness_eq] at leftOut
        dsimp only at leftOut
        have dropped : ¬ retains elementHacks ctx
            (intoStatus (ids (makeKey ctx sender))) = true := by
          intro retained
          rw [if_pos retained] at leftOut
          exact leftOut mem_cons_self
        cases row : ids (makeKey ctx sender) with
        | none =>
            rw [row] at dropped
            exact absurd rfl dropped
        | some seen =>
            rw [row] at dropped
            simp only [intoStatus, retains, Bool.or_eq_true, not_or,
              beq_iff_eq] at dropped
            exact ⟨seen, dropped.2.1, rfl, dropped.2.2⟩
      · obtain ⟨seen, positive, row, differs⟩ := ih
          ((mem_cons.mp listed).resolve_left same)
          (fun inside => leftOut (mem_retained_of_rest inside))
        rw [witness_row, if_neg same] at row
        exact ⟨seen, positive, row, differs⟩

end

inductive Call where
  | reset
  | retain (token : Option UInt64) (options : Option LazyLoadOptions)
      (senders : List UserId)

section

variable (elementHacks : Bool) (ctx : Context)

def Call.retained (ids : LazyLoadedIds) : Call → List UserId × LazyLoadedIds
  | .reset => ([], LazyLoading.reset ctx ids)
  | .retain token options senders =>
      retainLazyMembers elementHacks { ctx with token, options } senders ids

def run (calls : List Call) : LazyLoadedIds :=
  calls.foldl (fun ids call => (call.retained elementHacks ctx ids).2)
    (fun _ => none)

def Call.members (history : List Call) (call : Call) : List UserId :=
  (call.retained elementHacks ctx (run elementHacks ctx history)).1

/-- A call of the history has sent the sender, and until the next reset each
call with its token does. -/
def SentBy (history : List Call) (sender : UserId) (token : Option UInt64) :
    Prop :=
  ∃ before options senders between,
    history = before ++ .retain token options senders :: between ∧
    Call.reset ∉ between ∧
    sender ∈ (Call.retain token options senders).members elementHacks ctx
      before ∧
    ∀ between, Call.reset ∉ between → ∀ options_ senders_, sender ∈ senders_ →
      sender ∈ (Call.retain token options_ senders_).members elementHacks ctx
        (before ++ .retain token options senders :: between)

end

section

variable {elementHacks : Bool} {ctx : Context} {sender : UserId}
  {seen : UInt64}

theorem run_append {history later : List Call} :
    run elementHacks ctx (history ++ later) =
      later.foldl (fun ids call => (call.retained elementHacks ctx ids).2)
        (run elementHacks ctx history) :=
  foldl_append

theorem row_stays {history between : List Call} (positive : seen ≠ 0)
    (noReset : Call.reset ∉ between)
    (row : run elementHacks ctx history (makeKey ctx sender) = some seen) :
    run elementHacks ctx (history ++ between) (makeKey ctx sender) =
      some seen := by
  induction between using reverseRecOn with
  | nil => rwa [append_nil]
  | append_singleton between call ih =>
      rw [mem_append, not_or, mem_singleton] at noReset
      rw [← append_assoc, run_append]
      cases call with
      | reset => exact absurd rfl noReset.2
      | retain token options senders =>
          exact @retain_seen elementHacks { ctx with token, options } _ _ _ _
            positive (ih noReset.1)

/-- The number that is stored is the token of a call that has sent the
sender. -/
theorem sentBy_of_row (history : List Call) (positive : seen ≠ 0)
    (row : run elementHacks ctx history (makeKey ctx sender) = some seen) :
    SentBy elementHacks ctx history sender (some seen) := by
  induction history using reverseRecOn with
  | nil => cases row
  | append_singleton history call ih =>
      have after := row
      rw [run_append] at row
      cases call with
      | reset =>
          have none : reset ctx (run elementHacks ctx history)
              (makeKey ctx sender) = none := if_pos rfl
          cases none.symm.trans row
      | retain token options senders =>
          rcases @retain_stored elementHacks { ctx with token, options } _ _ _ _
            positive row with earlier | ⟨isToken, sent⟩
          · obtain ⟨before, oldOptions, oldSenders, between, rfl, noReset,
              rest⟩ := ih earlier
            exact ⟨before, oldOptions, oldSenders, between ++ [_],
              append_assoc .., by simpa using noReset, rest⟩
          · obtain rfl : token = some seen := isToken
            refine ⟨history, options, senders, [], rfl, not_mem_nil, sent,
              fun between noReset options_ senders_ listed => ?_⟩
            by_contra leftOut
            obtain ⟨other, _, stored, differs⟩ := retain_left_out listed leftOut
            have stays := row_stays positive noReset after
            rw [append_assoc] at stays
            exact differs (stays.symm.trans stored)

/-- A sender that a call leaves out was sent by an earlier call with another
token. -/
theorem sentBy_of_left_out (history : List Call) (token : Option UInt64)
    (options : Option LazyLoadOptions) (senders : List UserId)
    (listed : sender ∈ senders)
    (leftOut : sender ∉ (Call.retain token options senders).members
      elementHacks ctx history) :
    ∃ earlier, earlier ≠ token ∧
      SentBy elementHacks ctx history sender earlier := by
  obtain ⟨seen, positive, row, differs⟩ := retain_left_out listed leftOut
  exact ⟨some seen, differs.symm, sentBy_of_row history positive row⟩

def phone : Context := ⟨"@alice", some "phone", "!room", none, none⟩

def twice : List Call := [.retain (some 1) none ["@bob"],
  .retain (some 2) none ["@bob"]]

theorem sentBy_of_left_out_twice :
    ("@bob" ∈ ["@bob"] ∧ "@bob" ∉ (Call.retain (some 3) none ["@bob"]).members
      false phone twice) ∧
    ∃ earlier, earlier ≠ some 3 ∧ SentBy false phone twice "@bob" earlier :=
  have leftOut : "@bob" ∉ (Call.retain (some 3) none ["@bob"]).members
      false phone twice := by decide +kernel
  ⟨⟨mem_cons_self, leftOut⟩, sentBy_of_left_out twice (some 3) none
    ["@bob"] mem_cons_self leftOut⟩

end

end ArcanaServer.Rooms.LazyLoading
