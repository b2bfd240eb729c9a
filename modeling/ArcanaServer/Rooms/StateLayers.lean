import ArcanaServer.Rooms.StateCompressor

namespace ArcanaServer.Rooms

open Library StateCompressor ShortStateInfo

/-! The stack of layers that the stored diffs describe, and what makes it
sound. -/

abbrev DiffTable := ShortStateHash → Option (List Nat)

inductive StackOf (table : DiffTable) :
    ShortStateHash → List ShortStateInfo → Prop
  | root {hash : ShortStateHash} {diff : StateDiff}
      (stored : table hash = some (encodeStatediff diff))
      (keyed : Keyed diff.added) (positive : 0 < hash)
      (isRoot : diff.parent = none) :
      StackOf table hash
        [{ diff with shortstatehash := hash, fullState := diff.added }]
  | layer {hash parent : ShortStateHash} {diff : StateDiff}
      {top : ShortStateInfo} {below : List ShortStateInfo}
      (stored : table hash = some (encodeStatediff diff))
      (keyed : Keyed diff.added) (older : parent < hash)
      (isLayer : diff.parent = some parent)
      (rest : StackOf table parent (top :: below)) :
      StackOf table hash (layerOn top hash diff :: top :: below)

def baseOf : List ShortStateInfo → CompressedState
  | [] => ∅
  | top :: _ => top.fullState

inductive Layered : List ShortStateInfo → Prop
  | nil : Layered []
  | cons {info : ShortStateInfo} {below : List ShortStateInfo}
      (rest : Layered below)
      (exact : info.toDiff.Exact (baseOf below))
      (full : info.fullState = info.toDiff.apply (baseOf below)) :
      Layered (info :: below)

/-- The shape that a loaded stack has, its top first. -/
structure WellLayered (stack : List ShortStateInfo) : Prop where
  bounded : stack.length ≤ 4
  root : ∀ above info, stack = above ++ [info] →
    info.removed = ∅ ∧ info.fullState = info.added
  step : ∀ above info parent below, stack = above ++ info :: parent :: below →
    info.fullState = (parent.fullState ∪ info.added) \ info.removed

namespace Layered

theorem suffix {above below : List ShortStateInfo}
    (layered : Layered (above ++ below)) : Layered below := by
  induction above with
  | nil => exact layered
  | cons info above ih =>
      cases layered with
      | cons rest _ _ => exact ih rest

theorem wellLayered {stack : List ShortStateInfo} (layered : Layered stack)
    (bounded : stack.length ≤ 4) : WellLayered stack := by
  refine ⟨bounded, ?_, ?_⟩
  · intro above info split
    rw [split] at layered
    cases layered.suffix with
    | cons _ exact full =>
        exact ⟨exact.removed_eq_empty, full.trans exact.apply_empty⟩
  · intro above info parent below split
    rw [split] at layered
    cases layered.suffix with
    | cons _ _ full => exact full

end Layered

namespace StackOf

variable {table : DiffTable} {hash : ShortStateHash}
  {stack : List ShortStateInfo}

section

variable (stackOf : StackOf table hash stack)
include stackOf

theorem positive : 0 < hash := by
  cases stackOf with
  | root _ _ positive _ => exact positive
  | layer _ _ older _ _ => exact Nat.zero_lt_of_lt older

theorem stored_ne_none : table hash ≠ none := by
  cases stackOf with
  | root stored _ _ _ | layer stored _ _ _ _ => simp [stored]

theorem length_le : stack.length ≤ hash := by
  induction stackOf with
  | root _ _ positive _ => exact positive
  | layer _ _ older _ _ ih => exact Nat.lt_of_le_of_lt ih older

theorem head :
    ∃ top below, stack = top :: below ∧ top.shortstatehash = hash := by
  cases stackOf with
  | root | layer => exact ⟨_, _, rfl, rfl⟩

end

theorem suffix {above below : List ShortStateInfo} {top : ShortStateInfo}
    (stackOf : StackOf table hash (above ++ top :: below)) :
    StackOf table top.shortstatehash (top :: below) ∧
      top.shortstatehash ≤ hash := by
  induction above generalizing hash with
  | nil =>
      obtain ⟨_, _, same, isTop⟩ := stackOf.head
      cases same
      subst isTop
      exact ⟨stackOf, Nat.le_refl _⟩
  | cons info above ih =>
      generalize whole : (info :: above) ++ top :: below = stack at stackOf
      cases stackOf with
      | root => simp at whole
      | layer _ _ older _ rest =>
          rw [List.cons_append] at whole
          injection whole with _ restEq
          rw [← restEq] at rest
          obtain ⟨inner, bound⟩ := ih rest
          exact ⟨inner, Nat.le_trans bound (Nat.le_of_lt older)⟩

theorem mono {table' : DiffTable}
    (extends' : ∀ key value, table key = some value → table' key = some value)
    (stackOf : StackOf table hash stack) : StackOf table' hash stack := by
  induction stackOf with
  | root stored keyed positive isRoot =>
      exact .root (extends' _ _ stored) keyed positive isRoot
  | layer stored keyed older isLayer _ ih =>
      exact .layer (extends' _ _ stored) keyed older isLayer ih

theorem getStatediff {compressor : StateCompressor}
    (stackOf : StackOf compressor.shortstatehashStatediff hash stack) :
    ∃ diff, compressor.getStatediff hash = .ok diff ∧
      ((diff.parent = none ∧ stack =
          [{ diff with shortstatehash := hash, fullState := diff.added }]) ∨
        ∃ parent top below, diff.parent = some parent ∧
          StackOf compressor.shortstatehashStatediff parent (top :: below) ∧
          stack = layerOn top hash diff :: top :: below) := by
  unfold StateCompressor.getStatediff
  cases stackOf with
  | @root _ diff stored keyed _ isRoot =>
      refine ⟨diff, ?_, .inl ⟨isRoot, rfl⟩⟩
      simp only [stored]
      apply decodeStatediff_encodeStatediff keyed
      simp [isRoot]
  | @layer _ parent diff top below stored keyed _ isLayer rest =>
      refine ⟨diff, ?_, .inr ⟨parent, top, below, isLayer, rest, rfl⟩⟩
      simp only [stored]
      apply decodeStatediff_encodeStatediff keyed
      rw [isLayer]
      intro zero
      cases zero
      exact absurd rest.positive (Nat.lt_irrefl 0)

theorem unique {compressor : StateCompressor} {stack' : List ShortStateInfo}
    (left : StackOf compressor.shortstatehashStatediff hash stack)
    (right : StackOf compressor.shortstatehashStatediff hash stack') :
    stack = stack' := by
  induction stack generalizing hash stack' with
  | nil =>
      obtain ⟨_, _, impossible, _⟩ := left.head
      cases impossible
  | cons info rest ih =>
      obtain ⟨diff, decoded, shape⟩ := left.getStatediff
      obtain ⟨diff', decoded', shape'⟩ := right.getStatediff
      rw [decoded] at decoded'
      cases decoded'
      rcases shape with isRoot | isLayer
      · rcases shape' with isRoot' | isLayer'
        · rw [isRoot.2, isRoot'.2]
        · obtain ⟨_, _, _, parent, _⟩ := isLayer'
          rw [isRoot.1] at parent
          cases parent
      · obtain ⟨parent, top, below, isParent, inner, whole⟩ := isLayer
        rcases shape' with isRoot' | isLayer'
        · rw [isRoot'.1] at isParent
          cases isParent
        · obtain ⟨parent', top', below', isParent', inner', whole'⟩ := isLayer'
          rw [isParent] at isParent'
          cases isParent'
          injection whole with infoEq restEq
          subst restEq
          have same := ih inner inner'
          injection same with sameTop sameBelow
          rw [whole', infoEq, sameTop, sameBelow]

end StackOf

def CacheValid (compressor : StateCompressor) : Prop :=
  compressor.stateinfoCache.Holds (StackOf compressor.shortstatehashStatediff)

def LoadsWithin (depth : Nat) : Prop :=
  ∀ {hash : ShortStateHash} {stack : List ShortStateInfo},
    stack.length ≤ depth →
    ∀ compressor : StateCompressor, CacheValid compressor →
      StackOf compressor.shortstatehashStatediff hash stack →
      ∃ cache, loadWithin depth compressor hash =
          (.ok stack, { compressor with stateinfoCache := cache }) ∧
        CacheValid { compressor with stateinfoCache := cache }

variable {hash : ShortStateHash} {stack : List ShortStateInfo}

theorem newShortstatehashInfo_spec (depth : Nat) (loads : LoadsWithin depth)
    (enough : stack.length ≤ depth + 1) (compressor : StateCompressor)
    (valid : CacheValid compressor)
    (stackOf : StackOf compressor.shortstatehashStatediff hash stack) :
    ∃ cache, newShortstatehashInfo (loadWithin depth) compressor hash =
        (.ok stack, { compressor with stateinfoCache := cache }) ∧
      CacheValid { compressor with stateinfoCache := cache } := by
  obtain ⟨diff, decoded, shape⟩ := stackOf.getStatediff
  unfold newShortstatehashInfo
  rcases shape with isRoot | isLayer
  · obtain ⟨noParent, whole⟩ := isRoot
    refine ⟨compressor.stateinfoCache, ?_, valid⟩
    simp only [decoded, noParent, whole]
  · obtain ⟨parent, top, below, isParent, inner, whole⟩ := isLayer
    subst whole
    obtain ⟨cache, loaded, cacheValid⟩ :=
      loads (Nat.le_of_succ_le_succ enough) compressor valid inner
    refine ⟨cache, ?_, cacheValid⟩
    simp only [decoded, isParent, loaded]

theorem loadsWithin (depth : Nat) : LoadsWithin depth := by
  induction depth with
  | zero =>
      intro hash stack enough compressor _ stackOf
      obtain ⟨_, _, shape, _⟩ := stackOf.head
      simp [shape] at enough
  | succ depth ih =>
      intro hash stack enough compressor valid stackOf
      obtain ⟨hit, kept⟩ := valid.getMut hash
      unfold loadWithin
      cases lookup : compressor.stateinfoCache.getMut hash with
      | mk found cache =>
          rw [lookup] at hit kept
          cases found with
          | some cached =>
              have same := stackOf.unique (hit cached rfl)
              subst same
              exact ⟨cache, rfl, kept⟩
          | none =>
              obtain ⟨inner, loaded, innerValid⟩ :=
                newShortstatehashInfo_spec depth ih enough compressor valid
                  stackOf
              refine ⟨inner.insert hash stack, ?_, innerValid.insert stackOf⟩
              simp only [loaded]

theorem loadShortstatehashInfo_spec (compressor : StateCompressor)
    (valid : CacheValid compressor)
    (stackOf : StackOf compressor.shortstatehashStatediff hash stack) :
    ∃ cache, loadShortstatehashInfo compressor hash =
        (.ok stack, { compressor with stateinfoCache := cache }) ∧
      CacheValid { compressor with stateinfoCache := cache } :=
  loadsWithin (hash + 1) (Nat.le_succ_of_le stackOf.length_le) compressor
    valid stackOf

def Fits (diff : Diff CompressedStateEvent) (diffToSibling : Nat) :
    List ShortStateInfo → Prop
  | [] => diff.added.card + diff.removed.card ≤ u64Max
  | parent :: parentStates =>
      let diffsum := diff.added.card + diff.removed.card
      let parentDiff := parent.added.card + parent.removed.card
      let foldFits :=
        Fits (foldIntoParent parent.toDiff diff) diffsum parentStates
      diffsum ≤ u64Max ∧
        if (parent :: parentStates).length > 3 then foldFits
        else
          parentDiff ≤ u64Max ∧ diffsum * diffsum ≤ u64Max ∧
            2 * diffToSibling ≤ u64Max ∧
            2 * diffToSibling * parentDiff ≤ u64Max ∧
            (2 * diffToSibling * parentDiff ≤ diffsum * diffsum → foldFits)

/-- What `save_state_from_diff` has stored: an exact diff to some part of the
stack of parents, which leads to the same state. -/
inductive SavedDiff (compressor : StateCompressor) (hash : ShortStateHash)
    (diff : Diff CompressedStateEvent) (parentStates : List ShortStateInfo) :
    StateCompressor → Prop
  | on (above below : List ShortStateInfo) (stored : Diff CompressedStateEvent)
      (split : parentStates = above ++ below) (few : below.length ≤ 3)
      (exact : stored.Exact (baseOf below))
      (reaches : stored.apply (baseOf below) =
        diff.apply (baseOf parentStates)) :
      SavedDiff compressor hash diff parentStates
        (compressor.saveStatediff hash { stored with
          parent := below.head?.map shortstatehash })

variable {compressor : StateCompressor} {diff : Diff CompressedStateEvent}
  {parent : ShortStateInfo} {parentStates : List ShortStateInfo}

theorem SavedDiff.cons {saved : StateCompressor}
    (layered : Layered (parent :: parentStates))
    (exact : diff.Exact (baseOf (parent :: parentStates)))
    (folded : SavedDiff compressor hash
      (foldIntoParent parent.toDiff diff) parentStates saved) :
    SavedDiff compressor hash diff (parent :: parentStates) saved := by
  obtain ⟨above, below, stored, split, few, storedExact, reaches⟩ := folded
  cases layered with
  | cons rest parentExact full =>
      have same : (foldIntoParent parent.toDiff diff).apply
          (baseOf parentStates) =
            diff.apply (baseOf (parent :: parentStates)) := by
        rw [foldIntoParent_eq_squash, Diff.apply_squash parentExact]
        · rw [baseOf, full]
        · rw [← full]
          exact exact
      apply SavedDiff.on (parent :: above) below stored _ few storedExact
      · rw [reaches, same]
      · rw [split, List.cons_append]

theorem foldIntoParent_exact (layered : Layered (parent :: parentStates))
    (exact : diff.Exact (baseOf (parent :: parentStates))) :
    (foldIntoParent parent.toDiff diff).Exact (baseOf parentStates) := by
  cases layered with
  | cons rest parentExact full =>
      rw [foldIntoParent_eq_squash]
      apply Diff.squash_exact parentExact
      rw [← full]
      exact exact

theorem saveStateFromDiff_spec (compressor : StateCompressor)
    (hash : ShortStateHash) :
    ∀ (parentStates : List ShortStateInfo) (diff : Diff CompressedStateEvent)
      (diffToSibling : Nat), Layered parentStates →
      diff.Exact (baseOf parentStates) →
      Fits diff diffToSibling parentStates →
      ∃ saved, saveStateFromDiff compressor hash diff diffToSibling
          parentStates = .ok saved ∧
        SavedDiff compressor hash diff parentStates saved := by
  intro parentStates
  induction parentStates with
  | nil =>
      intro diff diffToSibling _ exact fits
      refine ⟨compressor.saveStatediff hash { diff with parent := none }, ?_,
        .on [] [] diff rfl (by simp) exact rfl⟩
      simp only [Fits] at fits
      simp only [saveStateFromDiff, checkedAdd, fits, if_true, bind,
        Except.bind, pure, Except.pure]
  | cons parent parentStates ih =>
      intro diff diffToSibling layered exact fits
      have rest : Layered parentStates := by
        cases layered with
        | cons rest _ _ => exact rest
      have folds : ∀ sibling,
          Fits (foldIntoParent parent.toDiff diff) sibling parentStates →
          ∃ saved, saveStateFromDiff compressor hash
              (foldIntoParent parent.toDiff diff) sibling parentStates =
                .ok saved ∧
            SavedDiff compressor hash diff (parent :: parentStates) saved := by
        intro sibling fits'
        obtain ⟨saved, result, savedDiff⟩ := ih _ sibling rest
          (foldIntoParent_exact layered exact) fits'
        exact ⟨saved, result, savedDiff.cons layered exact⟩
      simp only [Fits] at fits
      obtain ⟨sumFits, fits⟩ := fits
      simp only [saveStateFromDiff, checkedAdd, sumFits, if_true, bind,
        Except.bind]
      split at fits
      · rename_i tooMany
        simp only [tooMany, if_true]
        exact folds _ fits
      · rename_i few
        obtain ⟨parentFits, squareFits, doubledFits, limitFits, fits⟩ := fits
        simp only [few, if_false, parentFits, checkedMul, squareFits,
          doubledFits, limitFits, if_true, pure, Except.pure]
        split
        · rename_i tooBig
          exact folds _ (fits tooBig)
        · exact ⟨_, rfl, .on [] (parent :: parentStates) diff rfl
            (Nat.le_of_not_lt few) exact rfl⟩

theorem saveStateFromDiff_overflow {diffToSibling : Nat}
    (sum : diff.added.card + diff.removed.card ≤ u64Max)
    (few : (parent :: parentStates).length ≤ 3)
    (parentSum : parent.added.card + parent.removed.card ≤ u64Max)
    (square : u64Max < (diff.added.card + diff.removed.card) *
      (diff.added.card + diff.removed.card)) :
    saveStateFromDiff compressor hash diff diffToSibling
      (parent :: parentStates) = .error .arithmetic := by
  have notMany : ¬ (parent :: parentStates).length > 3 := Nat.not_lt.mpr few
  simp only [saveStateFromDiff, checkedAdd, checkedMul, sum, parentSum,
    notMany, Nat.not_le.mpr square, if_true, if_false, bind, Except.bind]

/-- Outside these bounds nothing is stored. -/
theorem saveStateFromDiff_unfit (compressor : StateCompressor)
    (hash : ShortStateHash) :
    ∀ (parentStates : List ShortStateInfo) (diff : Diff CompressedStateEvent)
      (diffToSibling : Nat), ¬ Fits diff diffToSibling parentStates →
      saveStateFromDiff compressor hash diff diffToSibling parentStates =
        .error .arithmetic := by
  intro parentStates
  induction parentStates with
  | nil =>
      intro diff diffToSibling unfit
      simp only [Fits] at unfit
      simp only [saveStateFromDiff, checkedAdd, unfit, if_false, bind,
        Except.bind]
  | cons parent parentStates ih =>
      intro diff diffToSibling unfit
      simp only [Fits] at unfit
      simp only [saveStateFromDiff, checkedAdd, checkedMul, bind, Except.bind]
      split
      next error _ stops =>
        split at stops
        · cases stops
        · cases stops
          rfl
      next diffsum _ isSum =>
        split at isSum
        next sumFits =>
          cases isSum
          split
          next many =>
            rw [if_pos many] at unfit
            exact ih _ _ fun fits => unfit ⟨sumFits, fits⟩
          next few =>
            rw [if_neg few] at unfit
            by_cases parentFits :
              parent.added.card + parent.removed.card ≤ u64Max
            · by_cases squareFits : (diff.added.card + diff.removed.card) *
                  (diff.added.card + diff.removed.card) ≤ u64Max
              · by_cases doubledFits : 2 * diffToSibling ≤ u64Max
                · by_cases limitFits : 2 * diffToSibling *
                    (parent.added.card + parent.removed.card) ≤ u64Max
                  · simp only [parentFits, squareFits, doubledFits,
                      limitFits, if_true]
                    split
                    · exact ih _ _ fun fits => unfit ⟨sumFits,
                        parentFits, squareFits, doubledFits, limitFits,
                        fun _ => fits⟩
                    next small =>
                      exact absurd ⟨sumFits, parentFits, squareFits,
                        doubledFits, limitFits,
                        fun big => absurd big small⟩ unfit
                  · simp only [parentFits, squareFits, doubledFits,
                      limitFits, if_true, if_false]
                · simp only [parentFits, squareFits, doubledFits,
                    if_true, if_false]
              · simp only [parentFits, squareFits, if_true, if_false]
            · simp only [parentFits, if_false]
        · cases isSum

structure Stands (table : DiffTable) (hash : ShortStateHash)
    (stack : List ShortStateInfo) (state : CompressedState) : Prop where
  stackOf : StackOf table hash stack
  layered : Layered stack
  bounded : stack.length ≤ 4
  ends : baseOf stack = state

inductive Based (table : DiffTable) (hash : ShortStateHash) :
    List ShortStateInfo → Prop
  | none : Based table hash []
  | on {parent : ShortStateHash} {stack : List ShortStateInfo}
      (older : parent < hash) (stackOf : StackOf table parent stack)
      (layered : Layered stack) : Based table hash stack

theorem Based.layered {table : DiffTable} (based : Based table hash stack) :
    Layered stack := by
  cases based with
  | none => exact .nil
  | on _ _ layered => exact layered

theorem Stands.mono {table table' : DiffTable} {state : CompressedState}
    (extends' : ∀ key value, table key = some value →
      table' key = some value) (stands : Stands table hash stack state) :
    Stands table' hash stack state :=
  ⟨stands.stackOf.mono extends', stands.layered, stands.bounded, stands.ends⟩

theorem saveStatediff_extends (diff : StateDiff)
    (fresh : compressor.shortstatehashStatediff hash = none) :
    ∀ key value, compressor.shortstatehashStatediff key = some value →
      (compressor.saveStatediff hash diff).shortstatehashStatediff key =
        some value := by
  intro key value found
  have different : key ≠ hash := by
    intro same
    rw [same, fresh] at found
    cases found
  rw [← found]
  exact Function.update_of_ne different _ _

theorem saveStatediff_ne_none {other : ShortStateHash} {diff : StateDiff}
    (stored : (compressor.saveStatediff hash diff).shortstatehashStatediff
      other ≠ none) :
    other = hash ∨ compressor.shortstatehashStatediff other ≠ none := by
  rcases Decidable.em (other = hash) with same | different
  · exact .inl same
  · right
    intro missing
    apply stored
    rw [← missing]
    exact Function.update_of_ne different _ _

theorem SavedDiff.stands {saved : StateCompressor}
    (savedDiff : SavedDiff compressor hash diff parentStates saved)
    (fresh : compressor.shortstatehashStatediff hash = none)
    (positive : 0 < hash)
    (based : Based compressor.shortstatehashStatediff hash parentStates)
    (keyed : Keyed (diff.apply (baseOf parentStates))) :
    ∃ stack, Stands saved.shortstatehashStatediff hash stack
      (diff.apply (baseOf parentStates)) := by
  obtain ⟨above, below, stored, split, few, exact, reaches⟩ := savedDiff
  have extends' := saveStatediff_extends
    { stored with
      parent := below.head?.map shortstatehash } fresh
  have storedKeyed : Keyed stored.added := by
    intro event member
    apply keyed event
    rw [← reaches]
    exact exact.added_subset_apply member
  have layered : Layered below := by
    apply Layered.suffix
    rw [← split]
    exact based.layered
  have isStored : (compressor.saveStatediff hash { stored with
      parent := below.head?.map shortstatehash
      }).shortstatehashStatediff hash = some (encodeStatediff { stored with
        parent := below.head?.map shortstatehash }) :=
    Function.update_self _ _ _
  cases below with
  | nil =>
      refine ⟨_, .root isStored storedKeyed positive rfl,
        .cons layered exact ?_, by simp, ?_⟩
      · exact exact.apply_empty.symm
      · rw [← reaches]
        exact exact.apply_empty.symm
  | cons top rest =>
      cases based with
      | none => simp at split
      | on older stackOf _ =>
          rw [split] at stackOf
          obtain ⟨inner, bound⟩ := stackOf.suffix
          refine ⟨_, .layer isStored storedKeyed
            (Nat.lt_of_le_of_lt bound older) rfl (inner.mono extends'),
            .cons layered exact rfl, ?_, ?_⟩
          · exact Nat.succ_le_succ few
          · rw [← reaches]
            rfl

end ArcanaServer.Rooms
