import ArcanaServer.Library.Trace
import ArcanaServer.Resolver.Steps

namespace ArcanaServer.Resolver

open Library Function

/-! Calls of `lookup_actual_dest` that run side by side.  Between its two looks
at the cache a call makes the future of a lock, which nothing awaits: no lock
is taken, and the map of mutexes stays as it is. -/

abbrev CallId := Nat

/-- `missed`: the first look has found nothing, and `awaited` is what a
resolution of the name has stored since. -/
inductive LookupStage where
  | missed (awaited : Option CachedDest)
  | resolving

structure LookupCall where
  name : Text
  stage : LookupStage

structure LookupWorld where
  cache : Cache
  calls : CallId → Option LookupCall

inductive LookupAction where
  | lookup (call : CallId) (name : Text) (now : Nat)
  | lookAgain (call : CallId) (now : Nat)
  | resolve (call : CallId) (surroundings : Surroundings)
  | drop (call : CallId)

abbrev LookupAnswer := Except ResolverError (CachedDest × Bool)

def LookupCall.notice (name : Text) (result : CachedDest) (call : LookupCall) :
    LookupCall :=
  match call.stage with
  | .missed _ =>
      if call.name = name then { call with stage := .missed (some result) }
      else call
  | .resolving => call

namespace LookupWorld

def start (cache : Cache) : LookupWorld where
  cache
  calls := fun _ => none

def erase (world : LookupWorld) (call : CallId) : LookupWorld :=
  { world with calls := Function.update world.calls call none }

def setStage (world : LookupWorld) (call : CallId) (name : Text)
    (stage : LookupStage) : LookupWorld :=
  { world with calls := Function.update world.calls call (some ⟨name, stage⟩) }

def store (world : LookupWorld) (name : Text) (cache : Cache)
    (result : CachedDest) : LookupWorld where
  cache := cache.setDestination name result
  calls := fun call => (world.calls call).map (LookupCall.notice name result)

def lookup (world : LookupWorld) (call : CallId) (name : Text) (now : Nat) :
    LookupWorld × Option LookupAnswer :=
  match world.cache.getDestination now name with
  | some result => (world, some (.ok (result, true)))
  | none => (world.setStage call name (.missed none), none)

def lookAgain (world : LookupWorld) (call : CallId) (name : Text)
    (now : Nat) : LookupWorld × Option LookupAnswer :=
  match world.cache.getDestination now name with
  | some result => (world.erase call, some (.ok (result, true)))
  | none => (world.setStage call name .resolving, none)

def resolve (world : LookupWorld) (call : CallId) (name : Text)
    (surroundings : Surroundings) : LookupWorld × Option LookupAnswer :=
  match surroundings.resolveActualDest world.cache name true with
  | .error failure => (world.erase call, some (.error failure))
  | .ok (result, cache) =>
      ((world.store name cache result).erase call, some (.ok (result, false)))

def step (world : LookupWorld) :
    LookupAction → LookupWorld × Option LookupAnswer
  | .lookup call name now =>
      match world.calls call with
      | some _ => (world, none)
      | none => world.lookup call name now
  | .lookAgain call now =>
      match world.calls call with
      | some ⟨name, .missed _⟩ => world.lookAgain call name now
      | _ => (world, none)
  | .resolve call surroundings =>
      match world.calls call with
      | some ⟨name, .resolving⟩ => world.resolve call name surroundings
      | _ => (world, none)
  | .drop call => (world.erase call, none)

abbrev LookupHistory :=
  List (Entry LookupWorld LookupAction (Option LookupAnswer))

def SingleFlight (world : LookupWorld) : Prop :=
  ∀ one two name, world.calls one = some ⟨name, .resolving⟩ →
    world.calls two = some ⟨name, .resolving⟩ → one = two

def ResultsShared (history : LookupHistory) : Prop :=
  ∀ entry ∈ history, ∀ call now name result, entry.input = .lookAgain call now →
    entry.before.calls call = some ⟨name, .missed (some result)⟩ →
    entry.output = some (.ok (result, true))

structure Deduplicated (history : LookupHistory) (world : LookupWorld) :
    Prop where
  single : world.SingleFlight
  shared : ResultsShared history

/-- A call that looks again and finds nothing is the only one for its name, and
what it has waited for has not expired. -/
def Alone (world : LookupWorld) : LookupAction → Prop
  | .lookAgain call now =>
      ∀ name awaited, world.calls call = some ⟨name, .missed awaited⟩ →
        (world.cache.getDestination now name = none →
          ∀ other, world.calls other ≠ some ⟨name, .resolving⟩) ∧
        ∀ result ∈ awaited, result.valid now = true
  | .lookup _ _ _ | .resolve _ _ | .drop _ => True

structure Inv (world : LookupWorld) : Prop where
  single : world.SingleFlight
  stored : ∀ call name result,
    world.calls call = some ⟨name, .missed (some result)⟩ →
    world.cache.destinations.lookup name = some result

section

variable {world : LookupWorld} {call : CallId} {name : Text}

theorem erase_calls {other : CallId} {known : LookupCall}
    (found : (world.erase call).calls other = some known) :
    world.calls other = some known := by
  simp only [erase, update_apply] at found
  split at found
  · cases found
  · exact found

theorem Inv.erase (inv : world.Inv) (call : CallId) : (world.erase call).Inv where
  single := fun one two name isOne isTwo =>
    inv.single one two name (erase_calls isOne) (erase_calls isTwo)
  stored := fun other name result found =>
    inv.stored other name result (erase_calls found)

variable {result : CachedDest}

theorem Inv.stored_setStage (inv : world.Inv) {stage : LookupStage}
    (unseen : ∀ seen, stage ≠ .missed (some seen)) {other : CallId}
    {known : Text} (found : (world.setStage call name stage).calls other =
      some ⟨known, .missed (some result)⟩) :
    world.cache.destinations.lookup known = some result := by
  simp only [setStage, update_apply] at found
  split at found
  · cases found
    exact absurd rfl (unseen result)
  · exact inv.stored other known result found

theorem Inv.miss (inv : world.Inv) (call : CallId) (name : Text) :
    (world.setStage call name (.missed none)).Inv where
  single := by
    intro one two other isOne isTwo
    simp only [setStage, update_apply] at isOne isTwo
    split at isOne
    · cases isOne
    · split at isTwo
      · cases isTwo
      · exact inv.single one two other isOne isTwo
  stored := fun _ _ _ found =>
    inv.stored_setStage (fun _ same => by cases same) found

theorem Inv.resolving (inv : world.Inv) (call : CallId)
    (alone : ∀ other, world.calls other ≠ some ⟨name, .resolving⟩) :
    (world.setStage call name .resolving).Inv where
  single := by
    intro one two other isOne isTwo
    simp only [setStage, update_apply] at isOne isTwo
    split at isOne
    next isCall =>
      cases isOne
      split at isTwo
      next isCallToo => exact isCall.trans isCallToo.symm
      · exact absurd isTwo (alone two)
    · split at isTwo
      · cases isTwo
        exact absurd isOne (alone one)
      · exact inv.single one two other isOne isTwo
  stored := fun _ _ _ found =>
    inv.stored_setStage (fun _ same => by cases same) found

theorem notice_resolving {known : LookupCall} {other : Text}
    (noticed : known.notice name result = ⟨other, .resolving⟩) :
    known = ⟨other, .resolving⟩ := by
  obtain ⟨its, stage⟩ := known
  cases stage with
  | resolving => exact noticed
  | missed awaited =>
      simp only [LookupCall.notice] at noticed
      split at noticed
      · cases noticed
      · cases noticed

theorem notice_missed {seen : CachedDest} {known : LookupCall} {other : Text}
    (noticed : known.notice name result = ⟨other, .missed (some seen)⟩) :
    other = name ∧ seen = result ∨
      other ≠ name ∧ known = ⟨other, .missed (some seen)⟩ := by
  obtain ⟨its, stage⟩ := known
  cases stage with
  | resolving => cases noticed
  | missed awaited =>
      simp only [LookupCall.notice] at noticed
      split at noticed
      next same =>
        cases noticed
        exact .inl ⟨same, rfl⟩
      next differs =>
        cases noticed
        exact .inr ⟨differs, rfl⟩

theorem Inv.store (inv : world.Inv) (name : Text) {cache : Cache}
    (result : CachedDest)
    (kept : cache.destinations = world.cache.destinations) :
    (world.store name cache result).Inv where
  single := by
    intro one two other isOne isTwo
    obtain ⟨first, isFirst, firstNoticed⟩ := Option.map_eq_some_iff.mp isOne
    obtain ⟨second, isSecond, secondNoticed⟩ := Option.map_eq_some_iff.mp isTwo
    cases notice_resolving firstNoticed
    cases notice_resolving secondNoticed
    exact inv.single one two other isFirst isSecond
  stored := by
    intro call other seen found
    obtain ⟨known, isKnown, noticed⟩ := Option.map_eq_some_iff.mp found
    rcases notice_missed noticed with new | old
    · obtain ⟨rfl, rfl⟩ := new
      exact AList.lookup_insert _
    · obtain ⟨differs, rfl⟩ := old
      change (cache.destinations.insert name result).lookup other = some seen
      rw [AList.lookup_insert_ne differs, kept]
      exact inv.stored call other seen isKnown

theorem Inv.step (inv : world.Inv) {action : LookupAction}
    (alone : world.Alone action) : (world.step action).1.Inv := by
  cases action with
  | lookup call name now =>
      simp only [LookupWorld.step, LookupWorld.lookup]
      split
      · exact inv
      · split
        · exact inv
        · exact inv.miss call name
  | lookAgain call now =>
      simp only [LookupWorld.step, LookupWorld.lookAgain]
      split
      next name awaited waits =>
        split
        · exact inv.erase call
        next nothing =>
          exact inv.resolving call ((alone name awaited waits).1 nothing)
      · exact inv
  | resolve call surroundings =>
      simp only [LookupWorld.step, LookupWorld.resolve]
      split
      next name resolves =>
        split
        · exact inv.erase call
        next result cache resolved =>
          have placed := Surroundings.resolveActualDest_placed resolved
          exact (inv.store name result placed.destinations).erase call
      · exact inv
  | drop call => exact inv.erase call

theorem Inv.lookAgain_shares (inv : world.Inv) {now : Nat}
    (alone : world.Alone (.lookAgain call now))
    (waits : world.calls call = some ⟨name, .missed (some result)⟩) :
    (world.step (.lookAgain call now)).2 = some (.ok (result, true)) := by
  have valid : result.valid now = true := (alone name _ waits).2 result rfl
  have found : world.cache.getDestination now name = some result := by
    rw [Cache.getDestination, inv.stored call name result waits,
      Option.filter_some, if_pos valid]
  simp only [LookupWorld.step, waits, LookupWorld.lookAgain, found]

end

theorem inv_start (cache : Cache) : (start cache).Inv where
  single := fun _ _ _ found => by cases found
  stored := fun _ _ _ found => by cases found

theorem deduplicated_of_alone {cache : Cache} {history : LookupHistory}
    {world : LookupWorld} (reaches : Reaches step (start cache) history world)
    (alone : Always (fun _ entry => entry.before.Alone entry.input) history) :
    Deduplicated history world := by
  have both : world.Inv ∧ ResultsShared history := by
    refine reaches.invariant
      (fun history world => world.Inv ∧ ResultsShared history)
      ⟨inv_start cache, fun _ member => by cases member⟩ ?_ alone
    intro history world action holds alone
    refine ⟨holds.1.step alone, ?_⟩
    intro entry member call now name result input waits
    rcases List.mem_append.mp member with old | new
    · exact holds.2 entry old call now name result input waits
    · cases List.mem_singleton.mp new
      change action = .lookAgain call now at input
      subst action
      exact holds.1.lookAgain_shares alone waits
  exact ⟨both.1.single, both.2⟩

def oneAfterTheOther : List LookupAction :=
  [.lookup 0 Name.matrixOrg.text 1000, .lookup 1 Name.matrixOrg.text 1000,
    .lookAgain 0 1000,
    .resolve 0 (.delegating ⟨Name.loopback, some Name.port8443⟩),
    .lookAgain 1 2000]

theorem oneAfterTheOther_alone :
    ∀ entry ∈ (run step (start .empty) oneAfterTheOther).1,
      entry.before.Alone entry.input := by
  intro entry member
  cases member with
  | head => trivial
  | tail _ member =>
    cases member with
    | head => trivial
    | tail _ member =>
      cases member with
      | head =>
          intro name awaited waits
          cases waits
          refine ⟨?_, fun _ waited => by cases waited⟩
          intro _ other resolves
          change update (update _ 0 _) 1 _ other = _ at resolves
          simp only [update_apply] at resolves
          split at resolves
          · cases resolves
          · split at resolves
            · cases resolves
            · cases resolves
      | tail _ member =>
        cases member with
        | head => trivial
        | tail _ member =>
          cases member with
          | head =>
              intro name awaited waits
              cases waits
              refine ⟨fun nothing => (by cases nothing), ?_⟩
              intro result isResult
              cases isResult
              rfl
          | tail _ member => cases member

theorem oneAfterTheOther_deduplicated :
    Deduplicated (run step (start .empty) oneAfterTheOther).1
      (run step (start .empty) oneAfterTheOther).2 :=
  deduplicated_of_alone (reaches_run step (start .empty) oneAfterTheOther)
    (Always.of_forall_mem oneAfterTheOther_alone)

def atOnce : List LookupAction :=
  [.lookup 0 Name.matrixOrg.text 1000, .lookup 1 Name.matrixOrg.text 1000,
    .lookAgain 0 1000, .lookAgain 1 1000]

theorem atOnce_resolvesTwice :
    ¬∀ (cache : Cache) (history : LookupHistory) (world : LookupWorld),
      Reaches step (start cache) history world →
      Deduplicated history world := by
  intro deduplicated
  have single := (deduplicated .empty _ _
    (reaches_run step (start .empty) atOnce)).single
  exact absurd (single 0 1 Name.matrixOrg.text rfl rfl) (by decide)

end LookupWorld

end ArcanaServer.Resolver
