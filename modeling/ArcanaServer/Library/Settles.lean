import Mathlib.Data.List.Basic

namespace ArcanaServer.Library

open List

variable {ε α β σ : Type}

/-! Postconditions of computations that may end with an error. -/

/-- The computation ends with a `good` value or with a `bad` error. -/
def Settles (bad : ε → Prop) (good : α → Prop) : Except ε α → Prop
  | .ok value => good value
  | .error error => bad error

namespace Settles

variable {computation : Except ε α}

theorem of_ok {bad : ε → Prop} {good : α → Prop}
    (settles : Settles bad good computation) {value : α}
    (result : computation = .ok value) : good value := by
  subst result
  exact settles

theorem of_error {bad : ε → Prop} {good : α → Prop}
    (settles : Settles bad good computation) {error : ε}
    (result : computation = .error error) : bad error := by
  subst result
  exact settles

theorem mono {bad bad' : ε → Prop} {good good' : α → Prop}
    (settles : Settles bad good computation)
    (errors : ∀ error, bad error → bad' error)
    (values : ∀ value, good value → good' value) :
    Settles bad' good' computation := by
  cases computation with
  | error error => exact errors error settles
  | ok value => exact values value settles

section

variable {bad : ε → Prop} {good : α → Prop} {good' : β → Prop}
  {first : Except ε α} {next : α → Except ε β}
  (settles : Settles bad good first)
include settles

theorem bind (continues : ∀ value, good value → Settles bad good' (next value)) :
    Settles bad good' (first >>= next) := by
  cases first with
  | error error => exact settles
  | ok value => exact continues value settles

end

theorem exists_ok {bad : ε → Prop} {good : α → Prop}
    {computation : Except ε α} (settles : Settles bad good computation)
    (never : ∀ error, ¬ bad error) :
    ∃ value, computation = .ok value ∧ good value := by
  cases computation with
  | error error => exact absurd settles (never error)
  | ok value => exact ⟨value, rfl, settles⟩

/-- The invariant of a loop over a list speaks of the elements already
visited. -/
theorem foldlM {bad : ε → Prop} {body : σ → α → Except ε σ}
    (invariant : List α → σ → Prop) :
    ∀ (rest visited : List α) (state : σ), invariant visited state →
      (∀ before next after state, visited ++ rest = before ++ next :: after →
        next ∈ rest → invariant before state →
        Settles bad (invariant (before ++ [next])) (body state next)) →
      Settles bad (invariant (visited ++ rest)) (rest.foldlM body state) := by
  intro rest
  induction rest with
  | nil =>
      intro visited state holds _
      simpa [Settles, pure, Except.pure] using holds
  | cons next rest ih =>
      intro visited state holds step
      rw [foldlM_cons]
      refine bind (step visited next rest state rfl (by simp) holds)
        (fun state' holds' => ?_)
      have regroup : visited ++ next :: rest = (visited ++ [next]) ++ rest := by
        simp
      rw [regroup]
      apply ih (visited ++ [next]) state' holds'
      intro before later after state split member
      exact step before later after state (by rw [regroup]; exact split)
        (mem_cons_of_mem _ member)

end Settles

variable {first : Except ε α} {next : α → Except ε β}

theorem bind_eq_ok {value : β} (result : (first >>= next) = .ok value) :
    ∃ intermediate, first = .ok intermediate ∧
      next intermediate = .ok value := by
  cases first with
  | error error => cases result
  | ok intermediate => exact ⟨intermediate, rfl, result⟩

theorem bind_cases {outcome : Except ε β} (result : (first >>= next) = outcome) :
    (∃ error, first = .error error ∧ outcome = .error error) ∨
      ∃ value, first = .ok value ∧ next value = outcome := by
  cases first with
  | error error => exact .inl ⟨error, rfl, result.symm⟩
  | ok value => exact .inr ⟨value, rfl, result⟩

variable {f : α → Except ε β}

theorem bind_congr_ok {g : α → Except ε β}
    (same : ∀ value, first = .ok value → f value = g value) :
    (first >>= f) = first >>= g := by
  cases first with
  | error error => rfl
  | ok value => exact same value rfl

theorem ok_bind (value : α) (next : α → Except ε β) :
    (Except.ok value >>= next) = next value :=
  rfl

theorem bind_ne_error {failure : ε} (noFailure : first ≠ .error failure)
    (later : ∀ value, next value ≠ .error failure) :
    first >>= next ≠ .error failure := by
  cases first with
  | error other =>
      intro same
      have equal : other = failure := Except.error.inj same
      exact noFailure (congrArg Except.error equal)
  | ok value => exact later value

theorem foldlM_iff {step : σ → α → Except ε σ} (holds : σ → Prop)
    (adds : α → Prop)
    (each : ∀ {state value after}, step state value = .ok after →
      (holds after ↔ holds state ∨ adds value)) :
    ∀ {values : List α} {state after : σ},
      values.foldlM step state = .ok after →
        (holds after ↔ holds state ∨ ∃ value ∈ values, adds value) := by
  intro values
  induction values with
  | nil =>
      intro state after result
      cases result
      simp
  | cons head tail ih =>
      intro state after result
      rw [foldlM_cons] at result
      obtain ⟨between, first, rest⟩ := bind_eq_ok result
      rw [ih rest, each first, or_assoc, exists_mem_cons_iff]

/-- Each value has its element, and each element its value. -/
theorem mapM_matches :
    ∀ {list : List α} {values : List β}, list.mapM f = .ok values →
      (∀ value ∈ values, ∃ element ∈ list, f element = .ok value) ∧
        ∀ element ∈ list, ∃ value ∈ values, f element = .ok value := by
  intro list
  induction list with
  | nil =>
      intro values result
      cases result
      simp
  | cons head tail ih =>
      intro values result
      rw [mapM_cons] at result
      obtain ⟨first, headResult, rest⟩ := bind_eq_ok result
      obtain ⟨others, tailResult, final⟩ := bind_eq_ok rest
      cases final
      obtain ⟨valued, found⟩ := ih tailResult
      constructor
      · intro value member
        rcases mem_cons.mp member with same | later
        · exact ⟨head, mem_cons_self, same ▸ headResult⟩
        · exact (valued value later).imp fun _ => .imp_left (.tail _)
      · intro element member
        rcases mem_cons.mp member with same | later
        · exact ⟨first, mem_cons_self, same ▸ headResult⟩
        · exact (found element later).imp fun _ => .imp_left (.tail _)

theorem mapM_eq_ok_of_imp {α β ε ε' : Type} {f : α → Except ε β}
    {g : α → Except ε' β}
    (imp : ∀ element value, f element = .ok value → g element = .ok value) :
    ∀ (list : List α) (values : List β),
      list.mapM f = .ok values → list.mapM g = .ok values := by
  intro list
  induction list with
  | nil =>
      intro values result
      simpa [pure, Except.pure] using result
  | cons head tail ih =>
      intro values result
      rw [mapM_cons] at result ⊢
      obtain ⟨value, headResult, rest⟩ := bind_eq_ok result
      obtain ⟨values', tailResult, final⟩ := bind_eq_ok rest
      rw [imp head value headResult]
      simp only [bind, Except.bind]
      rw [ih values' tailResult]
      simpa [pure, Except.pure] using final

theorem mapM_eq_ok_map {g : α → β} :
    ∀ {list : List α}, (∀ element ∈ list, f element = .ok (g element)) →
      list.mapM f = .ok (list.map g) := by
  intro list
  induction list with
  | nil => intro _; rfl
  | cons head tail ih =>
      intro each
      rw [mapM_cons, each head (by simp),
        ih (fun element member => each element (mem_cons_of_mem _ member))]
      rfl

theorem foldlM_congr_of_invariant {f g : σ → α → Except ε σ}
    (invariant : σ → Prop) :
    ∀ (list : List α) (state : σ), invariant state →
      (∀ state, ∀ element ∈ list, invariant state →
        f state element = g state element) →
      (∀ state next, ∀ element ∈ list, invariant state →
        f state element = .ok next → invariant next) →
      list.foldlM f state = list.foldlM g state := by
  intro list
  induction list with
  | nil => intro state _ _ _; rfl
  | cons head tail ih =>
      intro state holds same kept
      rw [foldlM_cons, foldlM_cons, ← same state head (by simp) holds]
      cases result : f state head with
      | error error => rfl
      | ok next =>
          exact ih next (kept state next head (by simp) holds result)
            (fun state element member =>
              same state element (mem_cons_of_mem _ member))
            (fun state next element member =>
              kept state next element (mem_cons_of_mem _ member))

theorem foldlM_congr {f g : σ → α → Except ε σ} (list : List α) (state : σ)
    (same : ∀ state, ∀ element ∈ list, f state element = g state element) :
    list.foldlM f state = list.foldlM g state :=
  foldlM_congr_of_invariant (fun _ => True) list state trivial
    (fun state element member _ => same state element member)
    (fun _ _ _ _ _ _ => trivial)

/-- Both computations give the same value, or both end with an error of the
kind that is put up with. -/
inductive Agree (fails : ε → Prop) : Except ε α → Except ε α → Prop
  | ok (value : α) : Agree fails (.ok value) (.ok value)
  | error {left right : ε} (leftFails : fails left)
      (rightFails : fails right) : Agree fails (.error left) (.error right)

namespace Agree

variable {fails : ε → Prop}

theorem bind {left right : Except ε α} {next other : α → Except ε β}
    (agree : Agree fails left right)
    (continues : ∀ value, left = .ok value → right = .ok value →
      Agree fails (next value) (other value)) :
    Agree fails (left >>= next) (right >>= other) := by
  cases agree with
  | ok value => exact continues value rfl rfl
  | error leftFails rightFails => exact .error leftFails rightFails

end Agree

end ArcanaServer.Library
