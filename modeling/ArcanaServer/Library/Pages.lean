import ArcanaServer.Library.EntryTable
import Mathlib.Data.List.TakeWhile

namespace ArcanaServer.Library

open List

variable {σ τ α : Type}

/-! Reading an ordered list page by page.  A page begins behind the last item of
the page before, and the list may grow at its end in between. -/

/-- What a page answers: the state after it, its items, and where the next page
begins. -/
structure Page (σ τ α : Type) where
  state : σ
  items : List α
  next : Option τ

abbrev Pager (σ τ α : Type) := σ → τ → Option (Page σ τ α)

namespace Pager

def follow (read : Pager σ τ α) : Nat → σ → τ → Option (σ × List α)
  | 0, _, _ => none
  | fuel + 1, state, token =>
      match read state token with
      | none => none
      | some page =>
          match page.next with
          | none => some (page.state, page.items)
          | some next =>
              (follow read fuel page.state next).map (fun rest =>
                (rest.1, page.items ++ rest.2))

inductive Reached (read : Pager σ τ α) (state : σ) (token : τ) : σ → τ → Prop
  | here : Reached read state token state token
  | step {reached next : τ} {before : σ} {page : Page σ τ α}
      (earlier : Reached read state token before reached)
      (answers : read before reached = some page)
      (goesOn : page.next = some next) :
      Reached read state token page.state next

/-- What is read: the items in the order of `before`, how many are still to
come, which of them a page at a token reads, and which it should read. -/
structure Listing (σ τ α : Type) where
  before : α → α → Prop
  items : σ → List α
  pending : σ → Nat
  token : α → τ
  given : τ → α → Bool
  beyond : τ → α → Bool

structure Listing.Lawful (listing : Listing σ τ α) (limit : Nat) : Prop where
  positive : 0 < limit
  asymmetric : ∀ one other, listing.before one other →
    ¬ listing.before other one
  ordered : ∀ state, (listing.items state).Pairwise listing.before
  given_onward : ∀ token state, ∀ one ∈ listing.items state,
    ∀ other ∈ listing.items state, listing.before one other →
      listing.given token one = true → listing.given token other = true
  beyond_onward : ∀ token state, ∀ one ∈ listing.items state,
    ∀ other ∈ listing.items state, listing.before one other →
      listing.beyond token one = true → listing.beyond token other = true
  beyond_token : ∀ state, ∀ one ∈ listing.items state, ∀ other,
    listing.beyond (listing.token one) other = true ↔ listing.before one other

variable (read : Pager σ τ α) (listing : Listing σ τ α)

/-- A page is the first items that are given, and the next one begins behind
the last of them. -/
structure Reads (limit : Nat) : Prop where
  grows : ∀ state token page, read state token = some page →
    ∃ added, listing.items page.state = listing.items state ++ added ∧
      added.length + listing.pending page.state ≤ listing.pending state
  items : ∀ state token page, read state token = some page → page.items =
      ((listing.items page.state).filter (listing.given token)).take limit
  next : ∀ state token page, read state token = some page →
    page.next = page.items.getLast?.map listing.token

def Complete (state : σ) (token : τ) : Prop :=
  ∃ fuel final, read.follow fuel state token = some (final,
    (listing.items final).filter (listing.beyond token))

def StepsOn (state : σ) (token : τ) : Prop :=
  ∃ page, read state token = some page ∧ ∀ item ∈ listing.items page.state,
      (listing.given token item = true ↔ listing.beyond token item = true)

end Pager

section

variable {before : α → α → Prop} {wanted given follows : α → Bool}
  {items later front back : List α} {last : α}

theorem filter_follows_eq
    (asymmetric : ∀ one other, before one other → ¬ before other one)
    (ordered : items.Pairwise before)
    (onward : ∀ one ∈ items, ∀ other ∈ items, before one other →
      wanted one = true → wanted other = true)
    (follows_iff : ∀ item, follows item = true ↔ before last item)
    (split : items.filter wanted = front ++ last :: back) :
    items.filter follows = back := by
  have isWanted : last ∈ items.filter wanted := by
    rw [split]
    simp
  obtain ⟨inside, wantedLast⟩ := mem_filter.mp isWanted
  have narrowed : items.filter follows =
      (items.filter wanted).filter follows := by
    rw [filter_filter]
    refine filter_congr (fun item member => ?_)
    cases isBehind : follows item with
    | false => rfl
    | true =>
        rw [Bool.true_and]
        exact (onward last inside item member ((follows_iff item).mp isBehind)
          wantedLast).symm
  have sorted := ordered.filter wanted
  rw [split, pairwise_append, pairwise_cons] at sorted
  obtain ⟨_, ⟨follow, _⟩, precede⟩ := sorted
  rw [narrowed, split, filter_append, filter_cons_of_neg,
    filter_eq_nil_iff.mpr, nil_append, filter_eq_self.mpr]
  · intro item member
    exact (follows_iff item).mpr (follow item member)
  · intro item member behind
    exact asymmetric item last (precede item member last mem_cons_self)
      ((follows_iff item).mp behind)
  · intro behind
    have self := (follows_iff last).mp behind
    exact asymmetric last last self self

theorem head_eq_or_before {list rest : List α} {head item : α}
    (ordered : list.Pairwise before) (split : list = head :: rest)
    (member : item ∈ list) : item = head ∨ before head item := by
  subst split
  rcases mem_cons.mp member with here | behind
  · exact .inl here
  · exact .inr ((pairwise_cons.mp ordered).1 item behind)

/-- A page begins the wanted items if and only if it reads just the wanted ones
among the items there are. -/
theorem page_append_eq_iff {limit : Nat} {rest : List α}
    (asymmetric : ∀ one other, before one other → ¬ before other one)
    (ordered : (items ++ later).Pairwise before)
    (givenOnward : ∀ one ∈ items, ∀ other ∈ items, before one other →
      given one = true → given other = true)
    (wantedOnward : ∀ one ∈ items ++ later, ∀ other ∈ items ++ later,
      before one other → wanted one = true → wanted other = true)
    (follows_iff : ∀ item, follows item = true ↔ before last item)
    (page : (items.filter given).take limit = front ++ [last]) :
    front ++ [last] ++ rest = (items ++ later).filter wanted ↔
      (∀ item ∈ items, (given item = true ↔ wanted item = true)) ∧
        rest = (items ++ later).filter follows := by
  obtain ⟨tail, whole⟩ : ∃ tail, items.filter given =
      front ++ [last] ++ tail := by
    refine ⟨(items.filter given).drop limit, ?_⟩
    rw [← page, take_append_drop]
  have behind (back : List α)
      (split : (items ++ later).filter wanted = front ++ [last] ++ back) :
      (items ++ later).filter follows = back := by
    rw [append_assoc, singleton_append] at split
    exact filter_follows_eq asymmetric ordered wantedOnward follows_iff split
  constructor
  · intro same
    refine ⟨?_, (behind rest same.symm).symm⟩
    obtain ⟨head, others, begins⟩ : ∃ head others,
        front ++ [last] = head :: others :=
      exists_cons_of_ne_nil (by simp)
    have givenSplit : items.filter given = head :: (others ++ tail) := by
      rw [whole, begins, cons_append]
    have wantedSplit : (items ++ later).filter wanted =
        head :: (others ++ rest) := by
      rw [← same, begins, cons_append]
    have givenHead : head ∈ items.filter given := by
      rw [givenSplit]
      exact mem_cons_self
    have wantedHead : head ∈ (items ++ later).filter wanted := by
      rw [wantedSplit]
      exact mem_cons_self
    have orderedItems := (pairwise_append.mp ordered).1
    obtain ⟨inside, isGiven⟩ := mem_filter.mp givenHead
    obtain ⟨insideAll, isWanted⟩ := mem_filter.mp wantedHead
    intro item member
    constructor
    · intro itemGiven
      obtain rfl | follow := head_eq_or_before (orderedItems.filter given)
        givenSplit (mem_filter.mpr ⟨member, itemGiven⟩)
      · exact isWanted
      · exact wantedOnward head insideAll item
          (mem_append_left later member) follow isWanted
    · intro itemWanted
      obtain rfl | follow := head_eq_or_before (ordered.filter wanted)
        wantedSplit (mem_filter.mpr ⟨mem_append_left later member, itemWanted⟩)
      · exact isGiven
      · exact givenOnward head inside item member follow isGiven
  · rintro ⟨agree, rfl⟩
    have sameItems : items.filter wanted = front ++ [last] ++ tail := by
      rw [← whole]
      exact filter_congr (fun item member =>
        Bool.eq_iff_iff.mpr (agree item member).symm)
    have split : (items ++ later).filter wanted =
        front ++ [last] ++ (tail ++ later.filter wanted) := by
      rw [filter_append, sameItems, append_assoc]
    rw [behind _ split, split]

theorem empty_page_iff {limit : Nat} (positive : 0 < limit)
    (page : (items.filter given).take limit = []) : [] = items.filter wanted ↔
      ∀ item ∈ items, (given item = true ↔ wanted item = true) := by
  have none : items.filter given = [] :=
    (take_eq_nil_iff.mp page).resolve_left positive.ne'
  rw [filter_eq_nil_iff] at none
  rw [eq_comm, filter_eq_nil_iff]
  refine forall₂_congr fun item member => ?_
  exact (iff_false_left (none item member)).symm

theorem before_of_mem_takeWhile {goOn : α → Bool} {stop item : α}
    (ordered : items.Pairwise before) (inside : stop ∈ items)
    (stops : goOn stop = false) (read : item ∈ items.takeWhile goOn) :
    before item stop := by
  induction items with
  | nil => cases inside
  | cons first rest ih =>
      obtain ⟨least, sorted⟩ := pairwise_cons.mp ordered
      cases going : goOn first with
      | false =>
          rw [takeWhile_cons_of_neg (by simp [going])] at read
          cases read
      | true =>
          have later : stop ∈ rest := by
            rcases mem_cons.mp inside with here | later
            · rw [← here, stops] at going
              cases going
            · exact later
          rw [takeWhile_cons_of_pos going] at read
          rcases mem_cons.mp read with here | further
          · rw [here]
            exact least stop later
          · exact ih sorted later further

/-- A page stays within a bound if the items do, or if it is full before. -/
theorem forall_mem_take_iff {within : α → Bool} {limit : Nat}
    (ordered : items.Pairwise before)
    (inward : ∀ one ∈ items, ∀ other ∈ items, before one other →
      within other = true → within one = true) :
    (∀ item ∈ items.take limit, within item = true) ↔
      (∀ item ∈ items, within item = true) ∨ limit ≤ items.countP within := by
  induction items generalizing limit with
  | nil => simp
  | cons first rest ih =>
      obtain ⟨least, sorted⟩ := pairwise_cons.mp ordered
      cases limit with
      | zero => simp
      | succ limit =>
          have tail : (∀ item ∈ rest.take limit, within item = true) ↔ _ :=
            ih sorted (fun one isOne other isOther => inward one
              (mem_cons_of_mem _ isOne) other
              (mem_cons_of_mem _ isOther))
          rw [take_succ_cons, forall_mem_cons, tail, forall_mem_cons]
          cases inside : within first with
          | true =>
              rw [countP_cons_of_pos inside]
              simp only [true_and, Nat.add_le_add_iff_right]
          | false =>
              have none : rest.countP within = 0 := by
                refine countP_eq_zero.mpr (fun item member holds => ?_)
                have first_ := inward first mem_cons_self item
                  (mem_cons_of_mem _ member) (least item member) holds
                rw [inside] at first_
                cases first_
              rw [countP_cons_of_neg (by simp [inside]), none]
              simp

/-- A page that ends at a stop and else at its limit.  What stands before a
stop is within. -/
theorem forall_mem_page_iff {goOn shown within : α → Bool} {limit : Nat}
    (ordered : items.Pairwise before)
    (inward : ∀ one ∈ items, ∀ other ∈ items, before one other →
      within other = true → within one = true)
    (stops : ∀ stop ∈ items, goOn stop = false → ∀ item, before item stop →
      within item = true) :
    (∀ item ∈ ((items.takeWhile goOn).filter shown).take limit,
        within item = true) ↔
      (∃ stop ∈ items, goOn stop = false) ∨
        (∀ item ∈ items, shown item = true → within item = true) ∨
        limit ≤ items.countP (fun item => within item && shown item) := by
  by_cases stopped : ∃ stop ∈ items, goOn stop = false
  · refine iff_of_true ?_ (.inl stopped)
    obtain ⟨stop, inside, isStop⟩ := stopped
    intro item member
    have read := mem_of_mem_filter (mem_of_mem_take member)
    exact stops stop inside isStop item
      (before_of_mem_takeWhile ordered inside isStop read)
  · rw [or_iff_right stopped]
    have whole : items.takeWhile goOn = items := by
      refine takeWhile_eq_self_iff.mpr (fun item member => ?_)
      cases going : goOn item with
      | true => rfl
      | false => exact absurd ⟨item, member, going⟩ stopped
    rw [whole, forall_mem_take_iff (ordered.filter shown), countP_filter]
    · refine or_congr_left (forall_congr' fun item => ?_)
      rw [mem_filter, and_imp]
    · intro one isOne other isOther
      exact inward one (mem_of_mem_filter isOne) other
        (mem_of_mem_filter isOther)

end

namespace Pager

variable {read : Pager σ τ α} {listing : Listing σ τ α} {limit : Nat}
  {state : σ} {token : τ}

theorem follow_grows (reads : Reads read listing limit) {fuel : Nat}
    {final : σ} {visited : List α}
    (ends : read.follow fuel state token = some (final, visited)) :
    ∃ later, listing.items final = listing.items state ++ later := by
  induction fuel generalizing state token visited with
  | zero => cases ends
  | succ fuel ih =>
      unfold follow at ends
      cases answers : read state token with
      | none =>
          rw [answers] at ends
          cases ends
      | some page =>
          rw [answers] at ends
          obtain ⟨added, grown, _⟩ := reads.grows state token page answers
          cases goesOn : page.next with
          | none =>
              simp only [goesOn] at ends
              cases ends
              exact ⟨added, grown⟩
          | some next =>
              simp only [goesOn] at ends
              obtain ⟨rest, follows, same⟩ := Option.map_eq_some_iff.mp ends
              obtain ⟨last, visits⟩ := rest
              cases same
              obtain ⟨later, more⟩ := ih follows
              exact ⟨added ++ later, by
                rw [more, grown, append_assoc]⟩

variable {page : Page σ τ α}

theorem last_of_next (reads : Reads read listing limit) {next : τ}
    (answers : read state token = some page) (goesOn : page.next = some next) :
    ∃ front last, page.items = front ++ [last] ∧ next = listing.token last := by
  have named := reads.next state token page answers
  rw [goesOn] at named
  obtain ⟨last, isLast, same⟩ := Option.map_eq_some_iff.mp named.symm
  obtain ⟨front, split⟩ := getLast?_eq_some_iff.mp isLast
  exact ⟨front, last, split, same.symm⟩

theorem items_eq_nil_of_next (reads : Reads read listing limit)
    (answers : read state token = some page) (ends : page.next = none) :
    page.items = [] := by
  have named := reads.next state token page answers
  rw [ends] at named
  exact getLast?_eq_none_iff.mp (Option.map_eq_none_iff.mp named.symm)

theorem page_right_iff (lawful : listing.Lawful limit)
    (reads : Reads read listing limit) {next : τ}
    (answers : read state token = some page) (goesOn : page.next = some next)
    {final : σ} {later visited : List α}
    (grown : listing.items final = listing.items page.state ++ later) :
    page.items ++ visited =
        (listing.items final).filter (listing.beyond token) ↔
      (∀ item ∈ listing.items page.state, (listing.given token item = true ↔
          listing.beyond token item = true)) ∧
        visited = (listing.items final).filter (listing.beyond next) := by
  obtain ⟨front, last, split, rfl⟩ := last_of_next reads answers goesOn
  have items := reads.items state token page answers
  have inside : last ∈ listing.items page.state := by
    have member : last ∈ page.items := by
      rw [split]
      simp
    rw [items] at member
    exact (mem_filter.mp (mem_of_mem_take member)).1
  have ordered := lawful.ordered final
  have onward := lawful.beyond_onward token final
  rw [grown] at ordered onward ⊢
  rw [split]
  exact page_append_eq_iff lawful.asymmetric ordered
    (lawful.given_onward token page.state) onward
    (lawful.beyond_token page.state last inside) (items.symm.trans split)

theorem complete_iff (lawful : listing.Lawful limit)
    (reads : Reads read listing limit) :
    Complete read listing state token ↔ StepsOn read listing state token ∧
        ∀ page next, read state token = some page → page.next = some next →
          Complete read listing page.state next := by
  constructor
  · rintro ⟨fuel, final, follows⟩
    cases fuel with
    | zero => cases follows
    | succ fuel =>
        unfold follow at follows
        cases answers : read state token with
        | none =>
            rw [answers] at follows
            cases follows
        | some page =>
            rw [answers] at follows
            cases goesOn : page.next with
            | none =>
                simp only [goesOn] at follows
                obtain ⟨rfl, visits⟩ := Prod.mk.inj (Option.some.inj follows)
                have empty := items_eq_nil_of_next reads answers goesOn
                have items := reads.items state token page answers
                rw [empty] at items visits
                refine ⟨⟨page, answers, (empty_page_iff lawful.positive
                  items.symm).mp visits⟩, ?_⟩
                rintro other next same hasNext
                cases same
                rw [goesOn] at hasNext
                cases hasNext
            | some next =>
                simp only [goesOn] at follows
                obtain ⟨rest, behind, same⟩ := Option.map_eq_some_iff.mp follows
                obtain ⟨last, visited⟩ := rest
                obtain ⟨rfl, visits⟩ := Prod.mk.inj same
                obtain ⟨later, grown⟩ := follow_grows reads behind
                obtain ⟨agree, rest⟩ := (page_right_iff lawful reads answers
                  goesOn grown).mp visits
                refine ⟨⟨page, answers, agree⟩, ?_⟩
                rintro other following same hasNext
                cases same
                rw [goesOn] at hasNext
                cases hasNext
                change visited = _ at rest
                rw [rest] at behind
                exact ⟨fuel, last, behind⟩
  · rintro ⟨⟨page, answers, agree⟩, rest⟩
    cases goesOn : page.next with
    | none =>
        refine ⟨1, page.state, ?_⟩
        have empty := items_eq_nil_of_next reads answers goesOn
        have items := reads.items state token page answers
        rw [empty] at items
        unfold follow
        simp only [answers, goesOn]
        rw [empty, (empty_page_iff lawful.positive items.symm).mpr agree]
    | some next =>
        obtain ⟨fuel, final, follows⟩ := rest page next answers goesOn
        obtain ⟨later, grown⟩ := follow_grows reads follows
        refine ⟨fuel + 1, final, ?_⟩
        unfold follow
        simp only [answers, goesOn, follows, Option.map_some]
        rw [(page_right_iff lawful reads answers goesOn grown).mpr ⟨agree, rfl⟩]

theorem Reached.head {next reached : τ} {before : σ}
    (answers : read state token = some page) (goesOn : page.next = some next)
    (later : Reached read page.state next before reached) :
    Reached read state token before reached := by
  induction later with
  | here => exact .step .here answers goesOn
  | step _ answers goesOn ih => exact .step ih answers goesOn

theorem measure_lt (lawful : listing.Lawful limit)
    (reads : Reads read listing limit) {next : τ}
    (answers : read state token = some page) (goesOn : page.next = some next)
    (agree : ∀ item ∈ listing.items page.state,
      (listing.given token item = true ↔ listing.beyond token item = true)) :
    (listing.items page.state).countP (listing.beyond next) +
        listing.pending page.state <
      (listing.items state).countP (listing.beyond token) +
        listing.pending state := by
  obtain ⟨added, grown, fewer⟩ := reads.grows state token page answers
  obtain ⟨front, last, split, rfl⟩ := last_of_next reads answers goesOn
  have items := reads.items state token page answers
  have member : last ∈ page.items := by
    rw [split]
    simp
  rw [items] at member
  obtain ⟨inside, isGiven⟩ := mem_filter.mp (mem_of_mem_take member)
  have isBeyond := (agree last inside).mp isGiven
  have behind := lawful.beyond_token page.state last inside
  have implies : ∀ item ∈ listing.items page.state,
      listing.beyond (listing.token last) item = true →
        listing.beyond token item = true := by
    intro item listed follows
    exact lawful.beyond_onward token page.state last inside item listed
      ((behind item).mp follows) isBeyond
  have fewerBehind : (listing.items page.state).countP
      (listing.beyond (listing.token last)) <
        (listing.items page.state).countP (listing.beyond token) := by
    refine lt_of_le_of_ne (countP_mono_left implies) (fun same => ?_)
    have self := (behind last).mp
      ((countP_eq_countP_iff implies).mp same.symm last inside isBeyond)
    exact lawful.asymmetric last last self self
  have few : added.countP (listing.beyond token) ≤ added.length :=
    countP_le_length
  have whole : (listing.items page.state).countP (listing.beyond token) =
      (listing.items state).countP (listing.beyond token) +
        added.countP (listing.beyond token) := by
    rw [grown, countP_append]
  omega

/-- The pages are complete if and only if every page on the way is right. -/
theorem complete_iff_forall_reached (lawful : listing.Lawful limit)
    (reads : Reads read listing limit) :
    Complete read listing state token ↔
      ∀ reached at_, Reached read state token reached at_ →
        StepsOn read listing reached at_ := by
  constructor
  · intro complete reached at_ isReached
    suffices holds : Complete read listing reached at_ from
      ((complete_iff lawful reads).mp holds).1
    induction isReached with
    | here => exact complete
    | step _ answers goesOn ih =>
        exact ((complete_iff lawful reads).mp ih).2 _ _ answers goesOn
  · intro all
    generalize size : (listing.items state).countP (listing.beyond token) +
      listing.pending state = bound
    induction bound using Nat.strongRecOn generalizing state token with
    | ind bound ih =>
        have first := all state token .here
        refine (complete_iff lawful reads).mpr ⟨first, ?_⟩
        intro page next answers goesOn
        obtain ⟨same, isPage, agree⟩ := first
        obtain rfl : same = page := Option.some.inj (isPage.symm.trans answers)
        refine ih _ ?_ ?_ rfl
        · rw [← size]
          exact measure_lt lawful reads answers goesOn agree
        · intro reached at_ later
          exact all reached at_ (.head answers goesOn later)

end Pager

end ArcanaServer.Library
