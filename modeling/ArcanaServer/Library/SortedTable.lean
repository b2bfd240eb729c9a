import ArcanaServer.Library.Sequence
import Mathlib.Data.List.Lex
import Mathlib.Data.List.Infix
import Mathlib.Data.List.Pairwise
import Mathlib.Order.Lattice

namespace ArcanaServer.Library

open List

structure SortedTable (κ υ : Type) [LinearOrder κ] where
  rows : List (κ × υ)
  sorted : rows.Pairwise (fun row later => row.1 < later.1)

namespace SortedTable

section

variable {κ υ : Type} [LinearOrder κ]

instance : Membership (κ × υ) (SortedTable κ υ) where
  mem table row := row ∈ table.rows

instance (row : κ × υ) (table : SortedTable κ υ) [DecidableEq υ] :
    Decidable (row ∈ table) :=
  inferInstanceAs (Decidable (row ∈ table.rows))

def empty : SortedTable κ υ := ⟨[], .nil⟩

variable (table : SortedTable κ υ)

def hasKey (key : κ) : Prop :=
  ∃ value, (key, value) ∈ table

theorem hasKey_iff_mem_keys {table : SortedTable κ υ} {key : κ} :
    table.hasKey key ↔ key ∈ table.rows.map Prod.fst := by
  constructor
  · rintro ⟨value, member⟩
    exact mem_map.mpr ⟨(key, value), member, rfl⟩
  · intro member
    obtain ⟨row, inside, rfl⟩ := mem_map.mp member
    exact ⟨row.2, inside⟩

instance (table : SortedTable κ υ) (key : κ) [DecidableEq κ] :
    Decidable (table.hasKey key) :=
  decidable_of_iff _ hasKey_iff_mem_keys.symm

def insertRow (key : κ) (value : υ) : List (κ × υ) → List (κ × υ)
  | [] => [(key, value)]
  | row :: rest =>
      if key < row.1 then (key, value) :: row :: rest
      else if key = row.1 then (key, value) :: rest
      else row :: insertRow key value rest

theorem eq_or_mem_of_mem_insertRow {key : κ} {value : υ} {row : κ × υ} :
    ∀ {rows : List (κ × υ)}, row ∈ insertRow key value rows →
      row = (key, value) ∨ row ∈ rows := by
  intro rows
  induction rows with
  | nil =>
      intro member
      exact .inl (mem_singleton.mp member)
  | cons first rest ih =>
      intro member
      unfold insertRow at member
      split at member
      · exact mem_cons.mp member
      · split at member
        · exact (mem_cons.mp member).imp_right (mem_cons_of_mem _)
        · rcases mem_cons.mp member with here | later
          · exact .inr (here ▸ mem_cons_self)
          · exact (ih later).imp_right (mem_cons_of_mem _)

theorem insertRow_sorted {key : κ} {value : υ} : ∀ {rows : List (κ × υ)},
      rows.Pairwise (fun row later => row.1 < later.1) →
      (insertRow key value rows).Pairwise
        (fun row later => row.1 < later.1) := by
  intro rows
  induction rows with
  | nil => exact fun _ => pairwise_singleton _ _
  | cons first rest ih =>
      intro sorted
      obtain ⟨least, later⟩ := pairwise_cons.mp sorted
      unfold insertRow
      split
      next less =>
        refine pairwise_cons.mpr ⟨fun row member => ?_, sorted⟩
        rcases mem_cons.mp member with here | inside
        · exact here ▸ less
        · exact less.trans (least row inside)
      next notLess =>
        split
        next same =>
          exact pairwise_cons.mpr
            ⟨fun row member => same ▸ least row member, later⟩
        next differs =>
          refine pairwise_cons.mpr ⟨fun row member => ?_, ih later⟩
          rcases eq_or_mem_of_mem_insertRow member with new | old
          · rw [new]
            exact lt_of_le_of_ne (not_lt.mp notLess) (Ne.symm differs)
          · exact least row old

def put (key : κ) (value : υ) : SortedTable κ υ where
  rows := insertRow key value table.rows
  sorted := insertRow_sorted table.sorted

def erase (key : κ) : SortedTable κ υ where
  rows := table.rows.filter (fun row => row.1 ≠ key)
  sorted := table.sorted.filter _

def keep (wanted : κ × υ → Bool) : SortedTable κ υ where
  rows := table.rows.filter wanted
  sorted := table.sorted.filter _

def get (key : κ) : Option υ :=
  (table.rows.find? (fun row => row.1 = key)).map Prod.snd

def eraseAll (keys : List κ) : SortedTable κ υ :=
  keys.foldl erase table

def putAll (rows : List (κ × υ)) : SortedTable κ υ :=
  rows.foldl (fun table row => table.put row.1 row.2) table

variable {table : SortedTable κ υ} {key : κ} {value : υ} {row : κ × υ}

theorem mem_def : row ∈ table ↔ row ∈ table.rows := Iff.rfl

@[simp] theorem not_mem_empty : row ∉ (empty : SortedTable κ υ) := not_mem_nil

theorem mem_insertRow {rows : List (κ × υ)}
    (sorted : rows.Pairwise (fun row later => row.1 < later.1)) :
    row ∈ insertRow key value rows ↔
      row = (key, value) ∨ row ∈ rows ∧ row.1 ≠ key := by
  induction rows with
  | nil => simp [insertRow]
  | cons first rest ih =>
      obtain ⟨least, later⟩ := pairwise_cons.mp sorted
      unfold insertRow
      split
      next less =>
        have above : row ∈ first :: rest → row.1 ≠ key := by
          intro member same
          rcases mem_cons.mp member with here | inside
          · exact lt_irrefl _ (same ▸ here ▸ less)
          · exact lt_irrefl _ (same ▸ less.trans (least row inside))
        rw [mem_cons]
        exact or_congr_right ⟨fun member => ⟨member, above member⟩, And.left⟩
      next notLess =>
        split
        next same =>
          have above : row ∈ rest → row.1 ≠ key := by
            intro member equal
            have less := least row member
            rw [equal, same] at less
            exact lt_irrefl _ less
          rw [mem_cons, mem_cons]
          refine or_congr_right ⟨fun member =>
            ⟨.inr member, above member⟩, ?_⟩
          rintro ⟨here | member, differs⟩
          · exact absurd (here ▸ same.symm) differs
          · exact member
        next differs =>
          rw [mem_cons, mem_cons, ih later]
          constructor
          · rintro (here | new | ⟨old, apart⟩)
            · exact .inr ⟨.inl here, here ▸ Ne.symm differs⟩
            · exact .inl new
            · exact .inr ⟨.inr old, apart⟩
          · rintro (new | ⟨here | old, apart⟩)
            · exact .inr (.inl new)
            · exact .inl here
            · exact .inr (.inr ⟨old, apart⟩)

theorem mem_put : row ∈ table.put key value ↔
    row = (key, value) ∨ row ∈ table ∧ row.1 ≠ key :=
  mem_insertRow table.sorted

theorem mem_erase : row ∈ table.erase key ↔ row ∈ table ∧ row.1 ≠ key := by
  simp [mem_def, erase]

theorem mem_keep {wanted : κ × υ → Bool} :
    row ∈ table.keep wanted ↔ row ∈ table ∧ wanted row = true :=
  mem_filter

theorem mem_eraseAll {keys : List κ} :
    row ∈ table.eraseAll keys ↔ row ∈ table ∧ row.1 ∉ keys := by
  unfold eraseAll
  induction keys generalizing table with
  | nil => simp
  | cons first rest ih =>
      rw [foldl_cons, ih, mem_erase, mem_cons, not_or, and_assoc]

section

variable {τ ρ κ' : Type} {holds : τ → ρ → Prop} {put : τ → ρ → τ}
  {keyOf : ρ → κ'} {start : τ} {found : ρ}

/-- What holds after rows were put held before, or is one of them. -/
theorem holds_of_foldl (only : ∀ table first found,
      holds (put table first) found →
        found = first ∨ holds table found ∧ keyOf found ≠ keyOf first)
    {rows : List ρ} (held : holds (rows.foldl put start) found) :
    holds start found ∨ found ∈ rows := by
  induction rows generalizing start with
  | nil => exact .inl held
  | cons first rest ih =>
      rcases ih held with earlier | later
      · rcases only _ _ _ earlier with new | old
        · exact .inr (new ▸ mem_cons_self)
        · exact .inl old.1
      · exact .inr (mem_cons_of_mem _ later)

theorem foldl_holds (keeps : ∀ table first found,
      found = first ∨ holds table found ∧ keyOf found ≠ keyOf first →
        holds (put table first) found)
    {rows : List ρ} (alone : ∀ other ∈ rows, keyOf other = keyOf found →
      other = found)
    (member : holds start found ∨ found ∈ rows) :
    holds (rows.foldl put start) found := by
  induction rows generalizing start with
  | nil => exact member.resolve_right not_mem_nil
  | cons first rest ih =>
      refine ih (fun other later => alone other (mem_cons_of_mem _ later)) ?_
      by_cases same : keyOf first = keyOf found
      · have isRow := alone first mem_cons_self same
        exact .inl (keeps _ _ _ (.inl isRow.symm))
      · refine member.imp (fun old => ?_) (fun listed => ?_)
        · exact keeps _ _ _ (.inr ⟨old, Ne.symm same⟩)
        · exact (mem_cons.mp listed).resolve_left
            (fun isFirst => same (isFirst ▸ rfl))

end

theorem mem_or_mem_of_mem_putAll {rows : List (κ × υ)}
    (member : row ∈ table.putAll rows) : row ∈ table ∨ row ∈ rows :=
  holds_of_foldl (fun _ _ _ => mem_put.mp) member

theorem mem_putAll {rows : List (κ × υ)}
    (alone : ∀ other ∈ rows, other.1 = row.1 → other = row)
    (member : row ∈ table ∨ row ∈ rows) : row ∈ table.putAll rows :=
  foldl_holds (fun _ _ _ => mem_put.mpr) alone member

theorem value_unique {one two : υ} (first : (key, one) ∈ table)
    (second : (key, two) ∈ table) : one = two := by
  by_contra differs
  have apart : table.rows.Pairwise (fun row later => row.1 ≠ later.1) :=
    table.sorted.imp (fun less => ne_of_lt less)
  have symmetric : Std.Symm (fun row later : κ × υ => row.1 ≠ later.1) :=
    ⟨fun _ _ => Ne.symm⟩
  exact apart.forall first second (by simpa using differs) rfl

theorem get_eq_some : table.get key = some value ↔ (key, value) ∈ table := by
  unfold get
  constructor
  · intro found
    obtain ⟨row, first, rfl⟩ := Option.map_eq_some_iff.mp found
    have same : row.1 = key := by simpa using find?_some first
    exact same ▸ List.mem_of_find?_eq_some first
  · intro member
    cases first : table.rows.find? (fun row => row.1 = key) with
    | none =>
        have apart := find?_eq_none.mp first (key, value) member
        simp at apart
    | some row =>
        have same : row.1 = key := by simpa using find?_some first
        have inside : (key, row.2) ∈ table :=
          same ▸ List.mem_of_find?_eq_some first
        rw [Option.map_some, value_unique inside member]

theorem get_put {other : κ} : (table.put key value).get other =
    if other = key then some value else table.get other := by
  refine Option.ext fun held => ?_
  rw [get_eq_some, mem_put]
  split
  next same => simp [same, eq_comm]
  next differs => simp [differs, get_eq_some]

/-- The last row of a key stays. -/
theorem get_putAll (rows : List (κ × υ)) (key : κ) :
    (table.putAll rows).get key =
      ((rows.filter (fun row => row.1 = key)).getLast?.map Prod.snd).or
        (table.get key) := by
  induction rows using reverseRecOn with
  | nil => simp [putAll]
  | append_singleton rows row ih =>
      have step : table.putAll (rows ++ [row]) =
          (table.putAll rows).put row.1 row.2 := by
        simp [putAll]
      rw [step, get_put, ih, filter_append]
      by_cases same : key = row.1
      · simp [same]
      · simp [same, Ne.symm same]

theorem rows_nodup (table : SortedTable κ υ) : table.rows.Nodup := by
  refine table.sorted.imp fun {row later} less same => ?_
  rw [same] at less
  exact lt_irrefl _ less

theorem cons_erase_nodup : ((key, value) :: (table.erase key).rows).Nodup := by
  have fresh : (key, value) ∉ (table.erase key).rows := by
    intro member
    exact (mem_erase.mp member).2 rfl
  exact nodup_cons.mpr ⟨fresh, rows_nodup _⟩

theorem put_perm : (table.put key value).rows.Perm
    ((key, value) :: (table.erase key).rows) := by
  refine (perm_ext_iff_of_nodup (rows_nodup _) cons_erase_nodup).mpr
    fun row => ?_
  rw [mem_cons]
  exact mem_put.trans (or_congr_right mem_erase.symm)

theorem perm_erase (stored : (key, value) ∈ table) :
    table.rows.Perm ((key, value) :: (table.erase key).rows) := by
  refine (perm_ext_iff_of_nodup (rows_nodup _) cons_erase_nodup).mpr
    fun row => ?_
  rw [mem_cons]
  constructor
  · intro member
    by_cases same : row.1 = key
    · refine .inl (Prod.ext same ?_)
      exact value_unique (show (row.1, row.2) ∈ table from member)
        (same ▸ stored)
    · exact .inr (mem_erase.mpr ⟨member, same⟩)
  · rintro (here | other)
    · rw [here]
      exact stored
    · exact (mem_erase.mp other).1

theorem erase_rows_of_absent (absent : table.get key = none) :
    (table.erase key).rows = table.rows := by
  refine filter_eq_self.mpr fun row member => decide_eq_true ?_
  intro same
  have stored : table.get key = some row.2 :=
    get_eq_some.mpr (same ▸ (show (row.1, row.2) ∈ table from member))
  rw [absent] at stored
  cases stored

theorem filter_key_eq {key : κ} {value : υ} : ∀ {rows : List (κ × υ)},
      rows.Pairwise (fun row later => row.1 < later.1) →
      (key, value) ∈ rows →
      rows.filter (fun row => row.1 = key) = [(key, value)] := by
  intro rows
  induction rows with
  | nil => exact fun _ member => absurd member not_mem_nil
  | cons first rest ih =>
      intro sorted member
      obtain ⟨least, later⟩ := pairwise_cons.mp sorted
      rcases mem_cons.mp member with here | inside
      · subst here
        rw [filter_cons_of_pos (by simp)]
        refine congrArg _ (filter_eq_nil_iff.mpr (fun row inside => ?_))
        simpa using (least row inside).ne'
      · have less := least (key, value) inside
        rw [filter_cons_of_neg (by simpa using less.ne), ih later inside]

/-- A scan of the rows starts at the first key that is not below its start and
goes on as long as the keys lie within its bounds. -/
theorem scan_eq_filter {below within : κ → Bool}
    (downward : ∀ lesser greater, lesser < greater → below greater = true →
      below lesser = true)
    (between : ∀ lesser greater, lesser < greater → below lesser = false →
      within greater = true → within lesser = true) :
    ∀ {rows : List (κ × υ)}, rows.Pairwise (fun row later => row.1 < later.1) →
      (rows.dropWhile (fun row => below row.1)).takeWhile
          (fun row => within row.1) =
        rows.filter (fun row => !below row.1 && within row.1) := by
  intro rows sorted
  rw [(span_eq_filter_of_pairwise sorted fun one _ other _ =>
    downward one.1 other.1).2]
  have inner := @span_eq_filter_of_pairwise _ _ (fun row => within row.1) _
    (sorted.filter fun row => !below row.1) fun one member other _ less =>
      between one.1 other.1 less (by simpa using (mem_filter.mp member).2)
  rw [inner.1, filter_filter]
  exact filter_congr fun row _ => Bool.and_comm _ _

theorem scan_eq_filter_reverse {above within : κ → Bool}
    (upward : ∀ lesser greater, lesser < greater → above lesser = true →
      above greater = true)
    (between : ∀ lesser greater, lesser < greater → above greater = false →
      within lesser = true → within greater = true)
    {rows : List (κ × υ)}
    (sorted : rows.Pairwise (fun row later => later.1 < row.1)) :
    (rows.dropWhile (fun row => above row.1)).takeWhile
        (fun row => within row.1) =
      rows.filter (fun row => !above row.1 && within row.1) :=
  @scan_eq_filter κᵒᵈ υ _ above within
    (fun greater lesser less => upward lesser greater less)
    (fun greater lesser less => between lesser greater less) rows sorted

end

section

variable {α υ : Type} [LinearOrder α]

/-- The rows from the first key that is not below `start`, as long as the keys
start with it. -/
def scanPrefix (table : SortedTable (List α) υ) (start : List α) :
    List (List α × υ) :=
  (table.rows.dropWhile (fun row => row.1 < start)).takeWhile
    (fun row => start.isPrefixOf row.1)

variable {start : List α}

theorem not_lt_of_prefix {key : List α} (starts : start <+: key) :
    ¬ key < start := by
  obtain ⟨rest, rfl⟩ := starts
  induction start with
  | nil => exact not_lt_nil _
  | cons head tail ih =>
      rw [cons_append, cons_lt_cons_iff]
      rintro (less | ⟨_, less⟩)
      · exact lt_irrefl _ less
      · exact ih less

/-- Between `start` and a key that starts with it all keys do. -/
theorem prefix_of_between {key greater : List α} (above : ¬ key < start)
    (below : key < greater) (starts : start <+: greater) : start <+: key := by
  induction start generalizing key greater with
  | nil => exact nil_prefix
  | cons head tail ih =>
      obtain ⟨rest, rfl⟩ := starts
      cases key with
      | nil => exact absurd (nil_lt_cons _ _) above
      | cons first later =>
          rw [cons_lt_cons_iff, not_or] at above
          rw [cons_append, cons_lt_cons_iff] at below
          have same : first = head := by
            rcases below with less | both
            · exact absurd less above.1
            · exact both.1
          subst same
          have tails := below.resolve_left (lt_irrefl _)
          have inner := ih (fun less => above.2 ⟨rfl, less⟩) tails.2
            (prefix_append tail rest)
          exact cons_prefix_cons.mpr ⟨rfl, inner⟩

theorem scanRows_eq_filter (start : List α) (rows : List (List α × υ))
    (sorted : rows.Pairwise (fun row later => row.1 < later.1)) :
    (rows.dropWhile (fun row => row.1 < start)).takeWhile
        (fun row => start.isPrefixOf row.1) =
      rows.filter (fun row => start.isPrefixOf row.1) := by
  have scan := @scan_eq_filter (List α) υ _ (fun key => key < start)
    (fun key => start.isPrefixOf key) ?_ ?_ rows sorted
  · refine scan.trans (filter_congr (fun row _ => ?_))
    by_cases starts : start.isPrefixOf row.1 = true
    · have above := not_lt_of_prefix ( isPrefixOf_iff_prefix.mp starts)
      simp [above]
    · simp [starts]
  · intro lesser greater less isBelow
    exact decide_eq_true (less.trans (of_decide_eq_true isBelow))
  · intro lesser greater less above starts
    exact isPrefixOf_iff_prefix.mpr (prefix_of_between
      (of_decide_eq_false above) less ( isPrefixOf_iff_prefix.mp starts))

theorem mem_scanPrefix {table : SortedTable (List α) υ} {row : List α × υ} :
    row ∈ table.scanPrefix start ↔ row ∈ table ∧ start <+: row.1 := by
  unfold scanPrefix
  rw [scanRows_eq_filter start table.rows table.sorted, mem_filter,
    isPrefixOf_iff_prefix]
  exact Iff.rfl

variable (table : SortedTable (List α) υ)

/-- The rows from the last key that is not above `finish` downward, as long as
the keys start with `start`. -/
def scanPrefixRev (start finish : List α) : List (List α × υ) :=
  (table.rows.reverse.dropWhile (fun row => finish < row.1)).takeWhile
    (fun row => start.isPrefixOf row.1)

theorem scanPrefixRev_eq_filter {finish : List α} (starts : start <+: finish) :
    table.scanPrefixRev start finish = (table.rows.filter (fun row =>
      !decide (finish < row.1) && start.isPrefixOf row.1)).reverse := by
  rw [← filter_reverse]
  refine @scan_eq_filter_reverse (List α) υ _ (fun key => finish < key)
    (fun key => start.isPrefixOf key) ?_ ?_ table.rows.reverse
    (pairwise_reverse.mpr table.sorted)
  · intro lesser greater less isAbove
    exact decide_eq_true ((of_decide_eq_true isAbove).trans less)
  · intro lesser greater less within begins
    have notAbove : ¬ finish < greater := of_decide_eq_false within
    have notBelow := not_lt_of_prefix ( isPrefixOf_iff_prefix.mp begins)
    have above : ¬ greater < start := fun below => notBelow (less.trans below)
    refine isPrefixOf_iff_prefix.mpr ?_
    rcases eq_or_lt_of_not_gt notAbove with same | below
    · exact same ▸ starts
    · exact prefix_of_between above below starts

/-- The rows from the first key that is not below `from_` upward, as long as
the keys start with `start`. -/
def scanPrefixFrom (start from_ : List α) : List (List α × υ) :=
  (table.rows.dropWhile (fun row => row.1 < from_)).takeWhile
    (fun row => start.isPrefixOf row.1)

theorem scanPrefixFrom_eq_filter {from_ : List α} (starts : start <+: from_) :
    table.scanPrefixFrom start from_ = table.rows.filter (fun row =>
      !decide (row.1 < from_) && start.isPrefixOf row.1) := by
  refine @scan_eq_filter (List α) υ _ (fun key => key < from_)
    (fun key => start.isPrefixOf key) ?_ ?_ table.rows table.sorted
  · intro lesser greater less isBelow
    exact decide_eq_true (less.trans (of_decide_eq_true isBelow))
  · intro lesser greater less notBelow within
    have reached : ¬ lesser < from_ := of_decide_eq_false notBelow
    have above : ¬ lesser < start :=
      fun below => not_lt_of_prefix starts ((not_lt.mp reached).trans_lt below)
    exact isPrefixOf_iff_prefix.mpr (prefix_of_between above less
      ( isPrefixOf_iff_prefix.mp within))

theorem append_lt_append_iff {first second : List α}
    (lengths : first.length = second.length) {rest others : List α} :
    first ++ rest < second ++ others ↔
      first < second ∨ first = second ∧ rest < others := by
  induction first generalizing second with
  | nil =>
      rw [eq_nil_of_length_eq_zero lengths.symm]
      simp
  | cons head tail ih =>
      cases second with
      | nil => cases lengths
      | cons other later =>
          rw [cons_append, cons_append, cons_lt_cons_iff,
            cons_lt_cons_iff, ih (Nat.succ.inj lengths), List.cons.injEq]
          constructor
          · rintro (less | ⟨same, less | ⟨tails, less⟩⟩)
            · exact .inl (.inl less)
            · exact .inl (.inr ⟨same, less⟩)
            · exact .inr ⟨⟨same, tails⟩, less⟩
          · rintro ((less | ⟨same, less⟩) | ⟨⟨same, tails⟩, less⟩)
            · exact .inl less
            · exact .inr ⟨same, .inl less⟩
            · exact .inr ⟨same, .inr ⟨tails, less⟩⟩

theorem append_lt_append_left_iff {front rest others : List α} :
    front ++ rest < front ++ others ↔ rest < others := by
  rw [append_lt_append_iff rfl]
  constructor
  · rintro (less | ⟨_, less⟩)
    · exact absurd less (lt_irrefl _)
    · exact less
  · exact fun less => .inr ⟨rfl, less⟩

def erasePrefix (start : List α) : SortedTable (List α) υ :=
  table.eraseAll ((table.scanPrefix start).map Prod.fst)

theorem mem_erasePrefix {table : SortedTable (List α) υ} {row : List α × υ} :
    row ∈ table.erasePrefix start ↔ row ∈ table ∧ ¬ start <+: row.1 := by
  unfold erasePrefix
  rw [mem_eraseAll]
  refine and_congr_right (fun member => not_congr ⟨fun listed => ?_,
    fun starts => ?_⟩)
  · obtain ⟨other, inside, same⟩ := mem_map.mp listed
    exact same ▸ (mem_scanPrefix.mp inside).2
  · exact mem_map_of_mem (mem_scanPrefix.mpr ⟨member, starts⟩)

end

section

variable {κ μ υ : Type} [LinearOrder κ] [LinearOrder μ]

variable (tables : SortedTable κ (SortedTable μ υ))

/-- The row goes into the table under its outer key, which is made if it is not
there. -/
def putIn (outer : κ) (inner : μ) (value : υ) :
    SortedTable κ (SortedTable μ υ) :=
  tables.put outer (((tables.get outer).getD .empty).put inner value)

def putAllIn (rows : List (κ × μ × υ)) : SortedTable κ (SortedTable μ υ) :=
  rows.foldl (fun tables row => tables.putIn row.1 row.2.1 row.2.2) tables

def Holds (row : κ × μ × υ) : Prop :=
  ∃ table, (row.1, table) ∈ tables ∧ row.2 ∈ table

def Filled : Prop :=
  ∀ outer table, (outer, table) ∈ tables → ∃ row, row ∈ table

variable {tables : SortedTable κ (SortedTable μ υ)} {outer : κ} {inner : μ}
  {value : υ} {row : κ × μ × υ}

theorem mem_getD_iff {entry : μ × υ} :
    entry ∈ (tables.get outer).getD .empty ↔ tables.Holds (outer, entry) := by
  cases found : tables.get outer with
  | none =>
      refine ⟨fun member => absurd member not_mem_empty, ?_⟩
      intro ⟨table, member, _⟩
      rw [get_eq_some.mpr member] at found
      cases found
  | some table =>
      have stored := get_eq_some.mp found
      refine ⟨fun member => ⟨table, stored, member⟩, ?_⟩
      intro ⟨other, member, inside⟩
      rw [value_unique member stored] at inside
      exact inside

theorem holds_putIn : (tables.putIn outer inner value).Holds row ↔
    row = (outer, inner, value) ∨
      tables.Holds row ∧ (row.1, row.2.1) ≠ (outer, inner) := by
  obtain ⟨outerKey, innerKey, held⟩ := row
  unfold putIn
  by_cases same : outerKey = outer
  · subst same
    have only : (tables.put outerKey
        (((tables.get outerKey).getD .empty).put inner value)).Holds
          (outerKey, innerKey, held) ↔
        (innerKey, held) ∈
          ((tables.get outerKey).getD .empty).put inner value := by
      constructor
      · intro ⟨table, member, inside⟩
        rw [value_unique member (mem_put.mpr (.inl rfl))] at inside
        exact inside
      · intro inside
        exact ⟨_, mem_put.mpr (.inl rfl), inside⟩
    rw [only, mem_put, mem_getD_iff]
    simp
  · constructor
    · intro ⟨table, member, inside⟩
      rcases mem_put.mp member with new | old
      · exact absurd (Prod.mk.inj new).1 same
      · refine .inr ⟨⟨table, old.1, inside⟩, fun keys => ?_⟩
        exact same (Prod.mk.inj keys).1
    · rintro (new | ⟨⟨table, member, inside⟩, _⟩)
      · exact absurd (Prod.mk.inj new).1 same
      · exact ⟨table, mem_put.mpr (.inr ⟨member, same⟩), inside⟩

theorem holds_of_holds_putAllIn {rows : List (κ × μ × υ)}
    (held : (tables.putAllIn rows).Holds row) :
    tables.Holds row ∨ row ∈ rows :=
  holds_of_foldl (fun _ _ _ => holds_putIn.mp) held

theorem holds_putAllIn {rows : List (κ × μ × υ)}
    (alone : ∀ other ∈ rows, (other.1, other.2.1) = (row.1, row.2.1) →
      other = row)
    (member : tables.Holds row ∨ row ∈ rows) :
    (tables.putAllIn rows).Holds row :=
  foldl_holds (fun _ _ _ => holds_putIn.mpr) alone member

theorem Filled.putIn (filled : tables.Filled) :
    (tables.putIn outer inner value).Filled := by
  intro key table member
  rcases mem_put.mp member with new | old
  · rw [(Prod.mk.inj new).2]
    exact ⟨(inner, value), mem_put.mpr (.inl rfl)⟩
  · exact filled key table old.1

theorem Filled.putAllIn (filled : tables.Filled)
    (rows : List (κ × μ × υ)) : (tables.putAllIn rows).Filled := by
  unfold SortedTable.putAllIn
  induction rows generalizing tables with
  | nil => exact filled
  | cons first rest ih => exact ih filled.putIn

end

end SortedTable

end ArcanaServer.Library
