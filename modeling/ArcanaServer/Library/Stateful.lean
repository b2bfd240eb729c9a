import Mathlib.Order.Defs.Unbundled

namespace ArcanaServer.Library

open List

variable {ε σ α β : Type}

/-! Computations on a state that answer or fail.  A failure keeps what was
written before it. -/

def ended : EStateM.Result ε σ α → σ
  | .ok _ state => state
  | .error _ state => state

def outcome : EStateM.Result ε σ α → Except ε α
  | .ok value _ => .ok value
  | .error error _ => .error error

variable {value : α}

theorem outcome_ok {result : EStateM.Result ε σ α}
    (succeeded : outcome result = .ok value) :
    ∃ state, result = .ok value state := by
  cases result with
  | ok computed state =>
      cases succeeded
      exact ⟨state, rfl⟩
  | error error state => cases succeeded

def onPart {π : Type} (part : σ → π) (write : σ → π → σ)
    (operation : π → Except ε α × π) : EStateM ε σ α := fun state =>
  match operation (part state) with
  | (.ok value, changed) => .ok value (write state changed)
  | (.error error, changed) => .error error (write state changed)

def Keeps (relation : σ → σ → Prop) (action : EStateM ε σ α) : Prop :=
  ∀ state, relation state (ended (action state))

variable {first : EStateM ε σ α} {state : σ}

theorem bind_ok {next : α → EStateM ε σ β} {final : σ} {value : β}
    (result : (first >>= next) state = .ok value final) :
    ∃ intermediate middle, first state = .ok intermediate middle ∧
      next intermediate middle = .ok value final := by
  change (match first state with
    | .ok intermediate middle => next intermediate middle
    | .error error middle => .error error middle) = .ok value final at result
  split at result
  · rename_i intermediate middle isFirst
    exact ⟨intermediate, middle, isFirst, result⟩
  · cases result

theorem bind_of_ok (next : α → EStateM ε σ β) {middle : σ}
    (result : first state = .ok value middle) :
    (first >>= next) state = next value middle := by
  change (match first state with
    | .ok intermediate middle => next intermediate middle
    | .error error middle => .error error middle) = _
  rw [result]

theorem bind_of_error (next : α → EStateM ε σ β) {middle : σ} {error : ε}
    (result : first state = .error error middle) :
    (first >>= next) state = .error error middle := by
  change (match first state with
    | .ok intermediate middle => next intermediate middle
    | .error error middle => .error error middle) = _
  rw [result]

theorem get_bind (next : σ → EStateM ε σ β) (state : σ) :
    ((get : EStateM ε σ σ) >>= next) state = next state state :=
  rfl

theorem forM_cons (action : α → EStateM ε σ PUnit) (head : α) (tail : List α) :
    (head :: tail).forM action = action head >>= fun _ => tail.forM action :=
  rfl

theorem ended_bind_pure (first : EStateM ε σ α) (value : α → β) (state : σ) :
    ended ((first >>= fun result => pure (value result)) state) =
      ended (first state) := by
  cases result : first state with
  | ok value middle =>
      rw [bind_of_ok _ result]
      rfl
  | error error middle =>
      rw [bind_of_error _ result]
      rfl

variable {relation : σ → σ → Prop} {action : EStateM ε σ α}

theorem Keeps.imp {weaker : σ → σ → Prop} (keeps : Keeps relation action)
    (implies : ∀ before after, relation before after → weaker before after) :
    Keeps weaker action :=
  fun state => implies _ _ (keeps state)

variable {after : σ}

theorem Keeps.ok (keeps : Keeps relation action)
    (result : action state = .ok value after) : relation state after := by
  have kept := keeps state
  rw [result] at kept
  exact kept

/-- What holds when the first action ends holds when both have ended. -/
theorem Keeps.ended_bind [IsPreorder σ relation] {next : α → EStateM ε σ β}
    (keeps : ∀ value, Keeps relation (next value)) (first : EStateM ε σ α)
    (state : σ) :
    relation (ended (first state)) (ended ((first >>= next) state)) := by
  cases result : first state with
  | ok value middle =>
      rw [bind_of_ok next result]
      exact keeps value middle
  | error error middle =>
      rw [bind_of_error next result]
      exact refl_of relation middle

def refuseIf (condition : Bool) (error : ε) : EStateM ε σ Unit :=
  if condition then throw error else pure ()

theorem refuseIf_ok {condition : Bool} {error : ε} {value : Unit}
    (result : refuseIf condition error state = .ok value after) :
    condition = false ∧ after = state := by
  cases condition with
  | true => cases result
  | false =>
      cases result
      exact ⟨rfl, rfl⟩

theorem liftExcept_ok {computation : Except ε α}
    (result : (liftExcept computation : EStateM ε σ α) state =
      .ok value after) : computation = .ok value ∧ after = state := by
  cases computation with
  | error error => cases result
  | ok computed =>
      cases result
      exact ⟨rfl, rfl⟩

theorem tryCatch_of_ok (handler : ε → EStateM ε σ α) {middle : σ}
    (tried : action state = .ok value middle) :
    tryCatch action handler state = .ok value middle := by
  change EStateM.tryCatch action handler state = _
  delta EStateM.tryCatch
  simp only [tried]

theorem tryCatch_of_error (handler : ε → EStateM ε σ α) {middle : σ} {error : ε}
    (tried : action state = .error error middle) :
    tryCatch action handler state = handler error middle := by
  change EStateM.tryCatch action handler state = _
  delta EStateM.tryCatch
  simp only [tried]
  rfl

theorem tryCatch_ok {handler : ε → EStateM ε σ α}
    (result : tryCatch action handler state = .ok value after) :
    action state = .ok value after ∨
      ∃ error middle, action state = .error error middle ∧
        handler error middle = .ok value after := by
  cases tried : action state with
  | ok computed middle =>
      left
      rw [tryCatch_of_ok handler tried] at result
      exact result
  | error error middle =>
      right
      rw [tryCatch_of_error handler tried] at result
      exact ⟨error, middle, rfl, result⟩

theorem tryCatch_error_iff {handler : ε → EStateM ε σ α} {error : ε} :
    tryCatch action handler state = .error error after ↔
      ∃ raised middle, action state = .error raised middle ∧
        handler raised middle = .error error after := by
  cases tried : action state with
  | ok value middle =>
      rw [tryCatch_of_ok handler tried]
      simp
  | error raised middle =>
      rw [tryCatch_of_error handler tried]
      constructor
      · intro failed
        exact ⟨raised, middle, rfl, failed⟩
      · intro caught
        obtain ⟨_, _, same, failed⟩ := caught
        cases same
        exact failed

namespace Keeps

variable {relation : σ → σ → Prop} [IsPreorder σ relation]

theorem pure (value : α) : Keeps relation (Pure.pure value : EStateM ε σ α) :=
  fun state => refl_of relation state

theorem throw (error : ε) :
    Keeps relation (MonadExcept.throw error : EStateM ε σ α) :=
  fun state => refl_of relation state

theorem get : Keeps relation (MonadState.get : EStateM ε σ σ) :=
  fun state => refl_of relation state

theorem bind {first : EStateM ε σ α} {next : α → EStateM ε σ β}
    (keepsFirst : Keeps relation first)
    (keepsNext : ∀ value, Keeps relation (next value)) :
    Keeps relation (first >>= next) := by
  intro state
  have begins := keepsFirst state
  cases result : first state with
  | ok value middle =>
      rw [result] at begins
      rw [bind_of_ok next result]
      exact trans_of relation begins (keepsNext value middle)
  | error error middle =>
      rw [result] at begins
      rw [bind_of_error next result]
      exact begins

theorem refuseIf (condition : Bool) (error : ε) :
    Keeps relation (Library.refuseIf condition error : EStateM ε σ Unit) := by
  unfold Library.refuseIf
  split
  · exact throw error
  · exact pure ()

theorem liftExcept (computation : Except ε α) :
    Keeps relation (liftExcept computation : EStateM ε σ α) := by
  cases computation with
  | error error => exact throw error
  | ok value => exact pure value

theorem tryCatch {action : EStateM ε σ α} {handler : ε → EStateM ε σ α}
    (keepsAction : Keeps relation action)
    (keepsHandler : ∀ error, Keeps relation (handler error)) :
    Keeps relation (MonadExcept.tryCatch action handler) := by
  intro state
  have begins := keepsAction state
  cases result : action state with
  | ok value middle =>
      rw [result] at begins
      rw [tryCatch_of_ok handler result]
      exact begins
  | error error middle =>
      rw [result] at begins
      rw [tryCatch_of_error handler result]
      exact trans_of relation begins (keepsHandler error middle)

end Keeps

def Yields (relation : σ → σ → Prop) (condition : α → Prop)
    (action : EStateM ε σ α) : Prop :=
  Keeps relation action ∧
    ∀ state value after, action state = .ok value after → condition value

namespace Yields

variable {relation : σ → σ → Prop} [IsPreorder σ relation]
  {condition : α → Prop} {target : β → Prop}

theorem pure {value : α} (holds : condition value) :
    Yields relation condition (Pure.pure value : EStateM ε σ α) := by
  refine ⟨Keeps.pure value, ?_⟩
  rintro state computed after result
  cases result
  exact holds

theorem throw (error : ε) :
    Yields relation condition (MonadExcept.throw error : EStateM ε σ α) := by
  refine ⟨Keeps.throw error, ?_⟩
  rintro state computed after result
  cases result

omit [IsPreorder σ relation] in
theorem of_keeps {action : EStateM ε σ α} (keeps : Keeps relation action) :
    Yields relation (fun _ => True) action :=
  ⟨keeps, fun _ _ _ _ => trivial⟩

theorem bind {first : EStateM ε σ α} {next : α → EStateM ε σ β}
    (yieldsFirst : Yields relation condition first)
    (yieldsNext : ∀ value, condition value →
      Yields relation target (next value)) :
    Yields relation target (first >>= next) := by
  refine ⟨?_, ?_⟩
  · intro state
    have begins := yieldsFirst.1 state
    cases result : first state with
    | ok value middle =>
        rw [result] at begins
        rw [bind_of_ok next result]
        have holds := yieldsFirst.2 state value middle result
        exact trans_of relation begins ((yieldsNext value holds).1 middle)
    | error error middle =>
        rw [result] at begins
        rw [bind_of_error next result]
        exact begins
  · intro state value after result
    obtain ⟨intermediate, middle, isFirst, isNext⟩ := bind_ok result
    have holds := yieldsFirst.2 state intermediate middle isFirst
    exact (yieldsNext intermediate holds).2 middle value after isNext

theorem keeps_bind {first : EStateM ε σ α} {next : α → EStateM ε σ β}
    (yieldsFirst : Yields relation condition first)
    (keepsNext : ∀ value, condition value → Keeps relation (next value)) :
    Keeps relation (first >>= next) :=
  (yieldsFirst.bind fun value holds => of_keeps (keepsNext value holds)).1

theorem mapM {action : α → EStateM ε σ β}
    (yields : ∀ value, Yields relation target (action value))
    (values : List α) :
    Yields relation (fun results => ∀ result ∈ results, target result)
      (values.mapM action) := by
  induction values with
  | nil => exact pure (by simp)
  | cons value rest inductionHypothesis =>
      rw [mapM_cons]
      refine bind (yields value) fun result holds => ?_
      refine bind inductionHypothesis fun results every => ?_
      refine pure ?_
      intro other member
      rcases mem_cons.mp member with here | later
      · exact here ▸ holds
      · exact every other later

end Yields

theorem Keeps.foldlM {relation : σ → σ → Prop} [IsPreorder σ relation]
    {condition : α → Prop} {step : β → α → EStateM ε σ β}
    (keeps : ∀ accumulator value, condition value →
      Keeps relation (step accumulator value))
    {values : List α} (every : ∀ value ∈ values, condition value)
    (accumulator : β) :
    Keeps relation (values.foldlM step accumulator) := by
  induction values generalizing accumulator with
  | nil => exact Keeps.pure accumulator
  | cons value rest inductionHypothesis =>
      rw [foldlM_cons]
      refine (keeps accumulator value (every value mem_cons_self)).bind
        fun next => ?_
      exact inductionHypothesis
        (fun other later => every other (mem_cons_of_mem value later)) next

theorem Keeps.forM {relation : σ → σ → Prop} [IsPreorder σ relation]
    {action : α → EStateM ε σ PUnit} {values : List α}
    (keeps : ∀ value ∈ values, Keeps relation (action value)) :
    Keeps relation (values.forM action) := by
  induction values with
  | nil => exact Keeps.pure PUnit.unit
  | cons value rest inductionHypothesis =>
      rw [forM_cons]
      exact (keeps value mem_cons_self).bind (fun _ =>
        inductionHypothesis fun other later =>
          keeps other (mem_cons_of_mem value later))

def Meets (good : α → σ → Prop) (bad : ε → σ → Prop) :
    EStateM.Result ε σ α → Prop
  | .ok value state => good value state
  | .error error state => bad error state

namespace Meets

variable {bad : ε → σ → Prop}

theorem bind {good : α → σ → Prop} {good' : β → σ → Prop}
    {first : EStateM ε σ α} {next : α → EStateM ε σ β} {state : σ}
    (meets : Meets good bad (first state))
    (continues : ∀ value middle, good value middle →
      Meets good' bad (next value middle)) :
    Meets good' bad ((first >>= next) state) := by
  cases result : first state with
  | ok value middle =>
      rw [result] at meets
      rw [bind_of_ok next result]
      exact continues value middle meets
  | error error middle =>
      rw [result] at meets
      rw [bind_of_error next result]
      exact meets

theorem mono {good good' : α → σ → Prop} {bad' : ε → σ → Prop}
    {result : EStateM.Result ε σ α} (meets : Meets good bad result)
    (values : ∀ value state, good value state → good' value state)
    (errors : ∀ error state, bad error state → bad' error state) :
    Meets good' bad' result := by
  cases result with
  | ok value state => exact values value state meets
  | error error state => exact errors error state meets

theorem lift_bind {good : β → σ → Prop} {computation : Except ε α}
    {next : α → EStateM ε σ β} {state : σ}
    (errors : ∀ error, computation = .error error → bad error state)
    (continues : ∀ value, computation = .ok value →
      Meets good bad (next value state)) :
    Meets good bad ((liftExcept computation >>= next) state) := by
  cases computation with
  | ok value => exact continues value rfl
  | error error => exact errors error rfl

theorem liftExcept {good : α → σ → Prop} {computation : Except ε α} {state : σ}
    (values : ∀ value, computation = .ok value → good value state)
    (errors : ∀ error, computation = .error error → bad error state) :
    Meets good bad ((liftExcept computation : EStateM ε σ α) state) := by
  cases computation with
  | ok value => exact values value rfl
  | error error => exact errors error rfl

/-- The invariant of a loop speaks of the values that were visited. -/
theorem foldlM {body : β → α → EStateM ε σ β}
    (invariant : List α → β → σ → Prop) {values : List α}
    (step : ∀ value ∈ values, ∀ visited accumulator state,
      invariant visited accumulator state →
      Meets (invariant (visited ++ [value])) bad
        (body accumulator value state)) :
    ∀ (visited : List α) (accumulator : β) (state : σ),
      invariant visited accumulator state →
      Meets (invariant (visited ++ values)) bad
        (values.foldlM body accumulator state) := by
  induction values with
  | nil =>
      intro visited accumulator state holds
      rw [append_nil]
      exact holds
  | cons value rest inductionHypothesis =>
      obtain ⟨here, steps⟩ := forall_mem_cons.mp step
      intro visited accumulator state holds
      rw [foldlM_cons]
      refine bind (here visited accumulator state holds)
        (fun next middle holds => ?_)
      have later :=
        inductionHypothesis steps (visited ++ [value]) next middle holds
      rw [append_assoc] at later
      exact later

theorem forM {action : α → EStateM ε σ PUnit} (invariant : List α → σ → Prop)
    {values : List α}
    (step : ∀ visited value rest state, values = visited ++ value :: rest →
      invariant visited state →
      Meets (fun _ => invariant (visited ++ [value])) bad
        (action value state)) :
    ∀ (rest visited : List α) (state : σ), values = visited ++ rest →
      invariant visited state →
      Meets (fun _ => invariant values) bad (rest.forM action state) := by
  intro rest
  induction rest with
  | nil =>
      intro visited state whole holds
      rw [whole, append_nil]
      exact holds
  | cons value rest inductionHypothesis =>
      intro visited state whole holds
      rw [forM_cons]
      refine bind (step visited value rest state whole holds) ?_
      intro _ middle holds
      refine inductionHypothesis (visited ++ [value]) middle ?_ holds
      rw [whole, append_assoc, singleton_append]

end Meets

theorem bind_error_iff {first : EStateM ε σ α} {next : α → EStateM ε σ β}
    {state final : σ} {error : ε} :
    (first >>= next) state = .error error final ↔
      first state = .error error final ∨
      ∃ value middle, first state = .ok value middle ∧
        next value middle = .error error final := by
  cases result : first state with
  | ok value middle =>
      rw [bind_of_ok next result]
      constructor
      · intro failed
        exact .inr ⟨value, middle, rfl, failed⟩
      · intro failed
        rcases failed with failed | failed
        · cases failed
        · obtain ⟨_, _, same, failed⟩ := failed
          cases same
          exact failed
  | error raised middle => simp [bind_of_error next result]

theorem foldlM_error_iff {step : β → α → EStateM ε σ β} {values : List α}
    {accumulator : β} {state final : σ} {error : ε} :
    values.foldlM step accumulator state = .error error final ↔
      ∃ before value after reached middle, values = before ++ value :: after ∧
        before.foldlM step accumulator state = .ok reached middle ∧
        step reached value middle = .error error final := by
  induction values generalizing accumulator state with
  | nil =>
      refine iff_of_false (fun failed => by cases failed) ?_
      intro ⟨before, value, after, _, _, split, _⟩
      cases before <;> cases split
  | cons head rest inductionHypothesis =>
      rw [foldlM_cons, bind_error_iff]
      constructor
      · intro failed
        rcases failed with failed | failed
        · exact ⟨[], head, rest, accumulator, state, rfl, rfl, failed⟩
        · obtain ⟨next, middle, first, later⟩ := failed
          obtain ⟨before, value, after, reached, last, split, begins,
            failed⟩ := inductionHypothesis.mp later
          refine ⟨head :: before, value, after, reached, last, ?_, ?_, failed⟩
          · rw [split, cons_append]
          · rw [foldlM_cons, bind_of_ok _ first]
            exact begins
      · intro ⟨before, value, after, reached, last, split, begins, failed⟩
        cases before with
        | nil =>
            cases split
            cases begins
            exact .inl failed
        | cons first before =>
            cases split
            rw [foldlM_cons] at begins
            obtain ⟨next, middle, first, begins⟩ := bind_ok begins
            exact .inr ⟨next, middle, first, inductionHypothesis.mpr
              ⟨before, value, after, reached, last, rfl, begins, failed⟩⟩

def Raises (condition : ε → Prop) (action : EStateM ε σ α) : Prop :=
  ∀ state, Meets (fun _ _ => True) (fun error _ => condition error)
    (action state)

namespace Raises

variable {condition : ε → Prop}

theorem error {action : EStateM ε σ α} (raises : Raises condition action)
    {state final : σ} {error : ε} (failed : action state = .error error final) :
    condition error := by
  have meets := raises state
  rw [failed] at meets
  exact meets

theorem pure (value : α) : Raises condition (Pure.pure value : EStateM ε σ α) :=
  fun _ => trivial

theorem throw {error : ε} (holds : condition error) :
    Raises condition (MonadExcept.throw error : EStateM ε σ α) :=
  fun _ => holds

theorem bind {first : EStateM ε σ α} {next : α → EStateM ε σ β}
    (raisesFirst : Raises condition first)
    (raisesNext : ∀ value, Raises condition (next value)) :
    Raises condition (first >>= next) :=
  fun state => (raisesFirst state).bind fun value middle _ =>
    raisesNext value middle

theorem refuseIf {refused : Bool} {error : ε} (holds : condition error) :
    Raises condition (Library.refuseIf refused error : EStateM ε σ Unit) := by
  unfold Library.refuseIf
  split
  · exact throw holds
  · exact pure ()

theorem liftExcept {computation : Except ε α}
    (holds : ∀ error, computation = .error error → condition error) :
    Raises condition (liftExcept computation : EStateM ε σ α) :=
  fun _ => Meets.liftExcept (fun _ _ => trivial) holds

theorem mapM {action : α → EStateM ε σ β}
    (raises : ∀ value, Raises condition (action value)) (values : List α) :
    Raises condition (values.mapM action) := by
  induction values with
  | nil => exact pure []
  | cons value rest inductionHypothesis =>
      rw [mapM_cons]
      refine bind (raises value) fun result => ?_
      exact bind inductionHypothesis fun results => pure _

end Raises

def Once (rest change : σ → σ → Prop) (action : EStateM ε σ α) : Prop :=
  ∀ state, rest state (ended (action state)) ∨
    change state (ended (action state))

namespace Once

variable {rest change : σ → σ → Prop} [IsPreorder σ rest]

theorem keeps_bind (absorbs : ∀ first second third, rest first second →
      change second third → change first third)
    {first : EStateM ε σ α} {next : α → EStateM ε σ β}
    (keeps : Keeps rest first) (once : ∀ value, Once rest change (next value)) :
    Once rest change (first >>= next) := by
  intro state
  have begins := keeps state
  cases result : first state with
  | error error middle =>
      rw [result] at begins
      rw [bind_of_error next result]
      exact .inl begins
  | ok value middle =>
      rw [result] at begins
      rw [bind_of_ok next result]
      rcases once value middle with rests | changes
      · exact .inl (trans_of rest begins rests)
      · exact .inr (absorbs _ _ _ begins changes)

theorem bind_keeps (absorbs : ∀ first second third, change first second →
      rest second third → change first third)
    {first : EStateM ε σ α} {next : α → EStateM ε σ β}
    (once : Once rest change first) (keeps : ∀ value, Keeps rest (next value)) :
    Once rest change (first >>= next) := by
  intro state
  have begins := once state
  cases result : first state with
  | error error middle =>
      rw [result] at begins
      rw [bind_of_error next result]
      exact begins
  | ok value middle =>
      rw [result] at begins
      rw [bind_of_ok next result]
      rcases begins with rests | changes
      · exact .inl (trans_of rest rests (keeps value middle))
      · exact .inr (absorbs _ _ _ changes (keeps value middle))

end Once

end ArcanaServer.Library
