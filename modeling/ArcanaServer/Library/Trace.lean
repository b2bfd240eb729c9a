import ArcanaServer.Library.Sequence

namespace ArcanaServer.Library

open List

variable {σ ι ο : Type}

/-! Runs of a machine that answers one input after the other. -/

/-- One step of a run: the state before it, the input and the answer. -/
structure Entry (σ ι ο : Type) where
  before : σ
  input : ι
  output : ο

def entryOf (step : σ → ι → σ × ο) (state : σ) (input : ι) : Entry σ ι ο where
  before := state
  input := input
  output := (step state input).2

/-- `Reaches step start history state`: some inputs lead from `start` to
`state`, and `history` lists the steps in their order. -/
inductive Reaches (step : σ → ι → σ × ο) (start : σ) :
    List (Entry σ ι ο) → σ → Prop
  | start : Reaches step start [] start
  | next {history : List (Entry σ ι ο)} {state : σ} (input : ι)
      (earlier : Reaches step start history state) :
      Reaches step start (history ++ [entryOf step state input])
        (step state input).1

/-- Every step of the history meets the condition, which may depend on the
steps before it. -/
def Always (condition : List (Entry σ ι ο) → Entry σ ι ο → Prop)
    (history : List (Entry σ ι ο)) : Prop :=
  ∀ earlier entry later, history = earlier ++ entry :: later →
    condition earlier entry

namespace Always

variable {condition : List (Entry σ ι ο) → Entry σ ι ο → Prop}
  {history : List (Entry σ ι ο)} {entry : Entry σ ι ο}

theorem nil : Always condition [] := by
  intro earlier entry later split
  simp at split

theorem initial {later : List (Entry σ ι ο)}
    (always : Always condition (history ++ later)) :
    Always condition history := by
  intro earlier inner rest split
  apply always earlier inner (rest ++ later)
  rw [split, append_assoc, cons_append]

theorem last (always : Always condition (history ++ [entry])) :
    condition history entry :=
  always history entry [] rfl

theorem snoc (always : Always condition history)
    (final : condition history entry) :
    Always condition (history ++ [entry]) := by
  intro earlier inner later split
  rcases snoc_split split with isLast | isEarlier
  · obtain ⟨_, rfl, rfl⟩ := isLast
    exact final
  · obtain ⟨rest, _, sameHistory⟩ := isEarlier
    exact always earlier inner rest sameHistory

theorem of_forall_mem {condition : Entry σ ι ο → Prop}
    (every : ∀ entry ∈ history, condition entry) :
    Always (fun _ entry => condition entry) history := by
  intro earlier entry later split
  apply every
  rw [split]
  exact mem_append_right earlier mem_cons_self

end Always

variable {step : σ → ι → σ × ο} {history : List (Entry σ ι ο)}

/-- What one step preserves, a whole run preserves. -/
theorem Reaches.invariant {start : σ}
    {condition : List (Entry σ ι ο) → Entry σ ι ο → Prop}
    (holds : List (Entry σ ι ο) → σ → Prop) (initial : holds [] start)
    (preserved : ∀ history state input, holds history state →
      condition history (entryOf step state input) →
      holds (history ++ [entryOf step state input]) (step state input).1)
    {state : σ} (reaches : Reaches step start history state)
    (always : Always condition history) : holds history state := by
  induction reaches with
  | start => exact initial
  | next input _ ih =>
      exact preserved _ _ input (ih always.initial) always.last

theorem Reaches.entry {start : σ} {earlier later : List (Entry σ ι ο)}
    {entry : Entry σ ι ο} {state : σ}
    (reaches : Reaches step start history state)
    (split : history = earlier ++ entry :: later) :
    Reaches step start earlier entry.before ∧
      entry = entryOf step entry.before entry.input := by
  induction reaches generalizing later with
  | start => simp at split
  | next input inner ih =>
      rcases snoc_split split with isLast | isEarlier
      · obtain ⟨_, rfl, rfl⟩ := isLast
        exact ⟨inner, rfl⟩
      · obtain ⟨rest, _, sameHistory⟩ := isEarlier
        exact ih sameHistory

def run (step : σ → ι → σ × ο) : σ → List ι → List (Entry σ ι ο) × σ
  | state, [] => ([], state)
  | state, input :: rest =>
      let later := run step (step state input).1 rest
      (entryOf step state input :: later.1, later.2)

theorem Reaches.run {start : σ} {state : σ}
    (reaches : Reaches step start history state) (inputs : List ι) :
    Reaches step start (history ++ (Library.run step state inputs).1)
      (Library.run step state inputs).2 := by
  induction inputs generalizing history state with
  | nil => simpa [Library.run] using reaches
  | cons input rest ih =>
      have next := ih (reaches.next input)
      rw [append_assoc] at next
      exact next

theorem run_append (step : σ → ι → σ × ο) (inputs later : List ι) :
    ∀ state, (run step state (inputs ++ later)).2 =
      (run step (run step state inputs).2 later).2 := by
  induction inputs with
  | nil =>
      intro state
      rfl
  | cons input rest ih =>
      intro state
      exact ih (step state input).1

theorem reaches_run (step : σ → ι → σ × ο) (start : σ) (inputs : List ι) :
    Reaches step start (run step start inputs).1 (run step start inputs).2 :=
  Reaches.start.run inputs

/-- Runs on related inputs answer alike, if related inputs make the same step
wherever the condition holds for both. -/
theorem run_outputs_eq {related : ι → ι → Prop} {condition : σ → ι → Prop}
    (same : ∀ state input twin, related input twin →
      condition state input → condition state twin →
      step state input = step state twin) {inputs twins : List ι}
    (pairs : List.Forall₂ related inputs twins) :
    ∀ state, (∀ entry ∈ (run step state inputs).1,
        condition entry.before entry.input) →
      (∀ entry ∈ (run step state twins).1, condition entry.before entry.input) →
      (run step state inputs).1.map Entry.output =
        (run step state twins).1.map Entry.output := by
  induction pairs with
  | nil => exact fun _ _ _ => rfl
  | @cons input twin inputs twins pair _ inductionHypothesis =>
      intro state first second
      have steps : step state input = step state twin :=
        same state input twin pair (first _ mem_cons_self)
          (second _ mem_cons_self)
      have rest := inductionHypothesis (step state input).1
        (fun entry member => first entry (mem_cons_of_mem _ member))
        (fun entry member => second entry (mem_cons_of_mem _
          (by rw [← steps]; exact member)))
      simp only [run, map_cons, entryOf]
      rw [rest, steps]

section

variable {α : Type}

/-- Some step starts it and none of the later steps ends it. -/
def Since (starts ends : α → Prop) (history : List α) : Prop :=
  ∃ earlier entry later, history = earlier ++ entry :: later ∧ starts entry ∧
    ∀ other ∈ later, ¬ ends other

variable {starts ends : α → Prop}

theorem not_since_nil : ¬ Since starts ends [] := by
  intro since
  obtain ⟨earlier, entry, later, split, _⟩ := since
  simp at split

theorem since_snoc {history : List α} {entry : α} :
    Since starts ends (history ++ [entry]) ↔
      starts entry ∨ Since starts ends history ∧ ¬ ends entry := by
  constructor
  · intro since
    obtain ⟨earlier, first, later, split, begins, lasts⟩ := since
    rcases snoc_split split with isLast | isEarlier
    · exact .inl (isLast.2.2 ▸ begins)
    · obtain ⟨rest, isLater, sameHistory⟩ := isEarlier
      rw [isLater, forall_mem_append, forall_mem_singleton] at lasts
      exact .inr ⟨⟨earlier, first, rest, sameHistory, begins, lasts.1⟩, lasts.2⟩
  · intro either
    rcases either with begins | goesOn
    · exact ⟨history, entry, [], rfl, begins, by simp⟩
    · obtain ⟨⟨earlier, first, later, split, begins, lasts⟩, goes⟩ := goesOn
      refine ⟨earlier, first, later ++ [entry], ?_, begins, ?_⟩
      · rw [split, append_assoc, cons_append]
      · exact forall_mem_snoc lasts goes

end

end ArcanaServer.Library
