import ArcanaServer.Api.Messages
import ArcanaServer.Library.Pages

namespace ArcanaServer.Api.Messages

open Database Library Library.Pager ArcanaServer.Matrix Timeline List
open TimelineData Backlog

/-! All pages of a room: the end of each is where the next one begins. -/

/-- The stored events, and what the requests to come will meet. -/
structure Reader where
  backlog : Backlog
  upcoming : List Circumstances

/-- There is no one to ask, and nothing is read ahead. -/
def quiet : Circumstances := ⟨⟨true, []⟩, 0⟩

def Reader.met (reader : Reader) : Circumstances := reader.upcoming.headD quiet

def Request.startingAt (body : Request) (from_ : Option String) : Request :=
  { body with from_ }

section

variable (services : Services) (body : Request)

def nextPage : Pager Reader (Option String) (PduCount × Pdu) :=
  fun reader from_ =>
    match getMessageEventsRoute services reader.met (body.startingAt from_)
      reader.backlog with
    | .error _ _ => none
    | .ok response backlog => some {
        state := ⟨backlog, reader.upcoming.tail⟩
        items := response.events
        next := response.end_.map some }

def visible (backlog : Backlog) : List (PduCount × Pdu) :=
  match backlog.data.roomidShortroomid body.roomId with
  | none => []
  | some room =>
      (backlog.reading room body.dir).filter (isShown services body)

def startCount (from_ : Option String) : Option PduCount :=
  (body.startingAt from_).fromCount.toOption

def listing : Listing Reader (Option String) (PduCount × Pdu) where
  before := fun item other => Landing.Beyond item.1 body.dir other.1
  items := fun reader => visible services body reader.backlog
  pending := fun reader =>
    (reader.upcoming.map (fun met => met.backfill.pdus.length)).sum
  token := fun item => some (countToString item.1)
  given := fun from_ item => (startCount body from_).any (fun count =>
    decide (Landing.Given count body.dir item.1))
  beyond := fun from_ item => (startCount body from_).any (fun count =>
    decide (Landing.Beyond count body.dir item.1))

def pageBacklog (circumstances : Circumstances) (from_ : PduCount)
    (backlog : Backlog) : Backlog :=
  ended (backfill circumstances body from_ backlog)

/-- The page looks at no event that stops it, and the step past its count
reaches the next visible event. -/
def PageSteps (reader : Reader) (from_ : Option String) : Prop :=
  ∀ count, startCount body from_ = some count →
    let backlog := pageBacklog body reader.met count reader.backlog
    (∀ item ∈ readItems services reader.met body
        (backlog.range body.roomId body.dir count),
      panics services body item = none) ∧
    Landing.Steps (fun event =>
      ∃ item ∈ visible services body backlog, item.1 = event) body.dir count

variable (to_ : PduCount) (reader : Reader) (from_ : Option String)

def Bounded : Prop :=
  ∀ page, nextPage services body reader from_ = some page →
    ∀ event ∈ page.items, Landing.Beyond event.1 body.dir to_

/-- The page is stopped, or an event of its range has just the count of the
bound, or what is visible of the range does not reach the bound, or it fills
the page before the bound. -/
def MeetsBound : Prop :=
  ∀ count, startCount body from_ = some count →
    let items := (pageBacklog body reader.met count reader.backlog).range
      body.roomId body.dir count
    (∃ item ∈ readItems services reader.met body
        (beforeBound (some to_) items), panics services body item ≠ none) ∨
      (∃ item ∈ items, item.1 = to_) ∨
      (∀ item ∈ items, isShown services body item = true →
        Landing.Beyond item.1 body.dir to_) ∨
      body.pageLimit ≤ items.countP (fun item =>
        decide (Landing.Beyond item.1 body.dir to_) &&
          isShown services body item)

end

section

variable {services : Services} {circumstances : Circumstances}
  {body : Request} {from_ : PduCount} {to_ : Option PduCount}
  {backlog : Backlog} {room : ShortRoomId}

theorem backfill_ok (exists_ : backlog.data.roomExists body.roomId = true) :
    backfill circumstances body from_ backlog =
      .ok () (pageBacklog body circumstances from_ backlog) := by
  obtain ⟨room, short, stored⟩ := roomExists_iff.mp exists_
  unfold pageBacklog backfill
  cases body.dir with
  | forward => rfl
  | backward =>
      obtain ⟨after, filled⟩ := backfillIfRequired_ok from_
        circumstances.backfill short stored
      simp only [get_bind, filled]
      rfl

theorem pageBacklog_forward (forward : body.dir = .forward) :
    pageBacklog body circumstances from_ backlog = backlog := by
  unfold pageBacklog backfill
  rw [forward]
  rfl

theorem route_eq (exists_ : backlog.data.roomExists body.roomId = true)
    (isFrom : body.fromCount = .ok from_) (isTo : body.toCount = .ok to_) :
    getMessageEventsRoute services circumstances body backlog =
      match takePage services circumstances body to_
        ((pageBacklog body circumstances from_ backlog).range body.roomId
          body.dir from_) with
      | .error error =>
          .error error (pageBacklog body circumstances from_ backlog)
      | .ok events => .ok {
          start := countToString from_
          end_ := events.getLast?.map (fun event => countToString event.1)
          events } (pageBacklog body circumstances from_ backlog) := by
  have required : requireRoom body.roomId backlog = .ok () backlog := by
    unfold requireRoom
    rw [get_bind, exists_]
    rfl
  unfold getMessageEventsRoute
  rw [bind_of_ok _ required, isFrom, isTo]
  change (backfill circumstances body from_ >>= _) backlog = _
  rw [bind_of_ok _ (backfill_ok exists_), get_bind]
  cases takePage services circumstances body to_
    ((pageBacklog body circumstances from_ backlog).range body.roomId
      body.dir from_) with
  | error error => rfl
  | ok events => rfl

theorem takePage_ok_iff {items events : List (PduCount × Pdu)} :
    takePage services circumstances body to_ items = .ok events ↔
      (∀ item ∈ readItems services circumstances body (beforeBound to_ items),
        panics services body item = none) ∧
      events = ((beforeBound to_ items).filter
        (isShown services body)).take body.pageLimit := by
  unfold takePage
  rw [← findSome?_eq_none_iff]
  cases stopped : (readItems services circumstances body
      (beforeBound to_ items)).findSome? (panics services body) with
  | some message => simp [stopped]
  | none => simp [stopped, eq_comm]

theorem route_ok {response : Response} {after : Backlog}
    (result : getMessageEventsRoute services circumstances body backlog =
      .ok response after) :
    backlog.data.roomExists body.roomId = true ∧
      ∃ from_ to_ events, body.fromCount = .ok from_ ∧ body.toCount = .ok to_ ∧
        after = pageBacklog body circumstances from_ backlog ∧
        takePage services circumstances body to_
          (after.range body.roomId body.dir from_) = .ok events ∧
        response = {
          start := countToString from_
          end_ := events.getLast?.map (fun event => countToString event.1)
          events } := by
  obtain ⟨_, _, required, rest⟩ := bind_ok result
  unfold requireRoom at required
  rw [get_bind] at required
  have present : backlog.data.roomExists body.roomId = true := by
    simpa using (refuseIf_ok required).1
  obtain ⟨from_, _, readFrom, later⟩ := bind_ok rest
  have isFrom := (liftExcept_ok readFrom).1
  obtain ⟨to_, _, readTo, _⟩ := bind_ok later
  have isTo := (liftExcept_ok readTo).1
  rw [route_eq present isFrom isTo] at result
  refine ⟨present, from_, to_, ?_⟩
  cases taken : takePage services circumstances body to_
    ((pageBacklog body circumstances from_ backlog).range body.roomId
      body.dir from_) with
  | error error =>
      rw [taken] at result
      cases result
  | ok events =>
      rw [taken] at result
      cases result
      exact ⟨events, isFrom, isTo, rfl, taken, rfl⟩

end

section

variable {services : Services} {body : Request} {reader : Reader}
  {from_ : Option String} {count : PduCount} {room : ShortRoomId}

theorem startCount_eq (isFrom : (body.startingAt from_).fromCount =
    .ok count) : startCount body from_ = some count := by
  unfold startCount
  rw [isFrom]
  rfl

theorem fromCount_countToString (drawn : count.Drawn) :
    (body.startingAt (some (countToString count))).fromCount = .ok count := by
  change parseCount (countToString count) = .ok count
  unfold parseCount
  rw [countFromStr_countToString drawn]

variable {backlog : Backlog}

theorem visible_eq
    (short : backlog.data.roomidShortroomid body.roomId = some room) :
    visible services body backlog =
      (backlog.reading room body.dir).filter (isShown services body) := by
  unfold visible
  rw [short]

theorem reading_ordered (backlog : Backlog) (room : ShortRoomId)
    (dir : Direction) : (backlog.reading room dir).Pairwise
      (fun item other => Landing.Beyond item.1 dir other.1) := by
  cases dir with
  | forward => exact backlog.items_ascending room
  | backward => exact pairwise_reverse.mpr (backlog.items_ascending room)

theorem reading_drawn {dir : Direction} {item : PduCount × Pdu}
    (member : item ∈ backlog.reading room dir) : item.1.Drawn := by
  cases dir with
  | forward => exact (hasCount_of_mem_items member).drawn
  | backward =>
      have listed := mem_reverse.mp member
      exact (hasCount_of_mem_items listed).drawn

theorem visible_ordered (backlog : Backlog) :
    (visible services body backlog).Pairwise
      (fun item other => Landing.Beyond item.1 body.dir other.1) := by
  unfold visible
  split
  · exact .nil
  · exact (reading_ordered backlog _ body.dir).filter _

theorem visible_drawn {item : PduCount × Pdu}
    (member : item ∈ visible services body backlog) : item.1.Drawn := by
  unfold visible at member
  split at member
  · cases member
  · exact reading_drawn (mem_of_mem_filter member)

theorem listing_lawful (positive : 0 < body.limit) :
    (listing services body).Lawful body.pageLimit where
  positive := by
    unfold Request.pageLimit limitMax limitDefault
    split
    · omega
    · omega
  asymmetric := fun one other => Landing.beyond_asymm
  ordered := fun reader => visible_ordered reader.backlog
  given_onward := by
    intro from_ reader one isOne other isOther behind given
    obtain ⟨count, isFrom, given⟩ := (Option.any_eq_true _ _).mp given
    refine (Option.any_eq_true _ _).mpr ⟨count, isFrom, decide_eq_true ?_⟩
    exact Landing.given_of_beyond (visible_drawn isOne)
      (visible_drawn isOther) (of_decide_eq_true given) behind
  beyond_onward := by
    intro from_ reader one isOne other isOther behind beyond
    obtain ⟨count, isFrom, beyond⟩ := (Option.any_eq_true _ _).mp beyond
    refine (Option.any_eq_true _ _).mpr ⟨count, isFrom, decide_eq_true ?_⟩
    exact Landing.beyond_trans (of_decide_eq_true beyond) behind
  beyond_token := by
    intro reader one isOne other
    have isFrom : startCount body (some (countToString one.1)) =
        some one.1 := startCount_eq (fromCount_countToString
          (visible_drawn isOne))
    change (startCount body (some (countToString one.1))).any _ = true ↔ _
    rw [isFrom, Option.any_some, decide_eq_true_iff]
    rfl

theorem pageBacklog_extends (body : Request) (circumstances : Circumstances)
    (from_ : PduCount) (backlog : Backlog) (room : ShortRoomId) :
    Backlog.Extends room backlog (pageBacklog body circumstances from_ backlog)
      circumstances.backfill.pdus.length := by
  have same := (Backlog.Extends.refl room backlog).mono
    (Nat.zero_le circumstances.backfill.pdus.length)
  unfold pageBacklog backfill
  cases body.dir with
  | forward => exact same
  | backward =>
      simp only [get_bind]
      cases filled : backlog.backfillIfRequired body.roomId from_
        circumstances.backfill with
      | error error => exact same
      | ok after => exact backfillIfRequired_extends filled

theorem visible_pageBacklog (services : Services) (body : Request)
    (circumstances : Circumstances) (from_ : PduCount)
    (short : backlog.data.roomidShortroomid body.roomId = some room) :
    ∃ added, visible services body
        (pageBacklog body circumstances from_ backlog) =
          visible services body backlog ++ added ∧
      added.length ≤ circumstances.backfill.pdus.length := by
  cases dir : body.dir with
  | forward =>
      refine ⟨[], ?_, Nat.zero_le _⟩
      rw [pageBacklog_forward dir, append_nil]
  | backward =>
      have extends_ := pageBacklog_extends body circumstances from_ backlog room
      obtain ⟨added, items, few⟩ := extends_.items
      refine ⟨added.reverse.filter (isShown services body), ?_, ?_⟩
      · rw [visible_eq short, visible_eq (extends_.roomidShortroomid ▸ short),
          dir]
        unfold reading
        simp only
        rw [items, reverse_append, filter_append]
      · exact (length_filter_le _ _).trans (length_reverse.le.trans few)

theorem page_items {from_ : PduCount}
    (short : backlog.data.roomidShortroomid body.roomId = some room) :
    (backlog.range body.roomId body.dir from_).filter (isShown services body) =
      (visible services body backlog).filter (fun item =>
        decide (Landing.Given from_ body.dir item.1)) := by
  rw [visible_eq short, range_eq short, filter_filter, filter_filter]
  exact filter_congr (fun _ _ => Bool.and_comm _ _)

theorem nextPage_eq_some {page : Page Reader (Option String) (PduCount × Pdu)}
    (answers : nextPage services body reader from_ = some page) :
    ∃ response backlog, getMessageEventsRoute services reader.met
        (body.startingAt from_) reader.backlog = .ok response backlog ∧
      page = {
        state := ⟨backlog, reader.upcoming.tail⟩
        items := response.events
        next := response.end_.map some } := by
  unfold nextPage at answers
  split at answers
  · cases answers
  next response backlog result =>
    cases answers
    exact ⟨response, backlog, result, rfl⟩

theorem pending_tail (services : Services) (body : Request)
    (after : Backlog) (reader : Reader) :
    (listing services body).pending ⟨after, reader.upcoming.tail⟩ +
        reader.met.backfill.pdus.length =
      (listing services body).pending reader := by
  obtain ⟨backlog, upcoming⟩ := reader
  cases upcoming with
  | nil => rfl
  | cons met later => exact (Nat.add_comm _ _).trans sum_cons.symm

theorem beforeBound_none (items : List (PduCount × Pdu)) :
    beforeBound none items = items := by
  unfold beforeBound
  induction items with
  | nil => rfl
  | cons item rest ih => rw [takeWhile_cons_of_pos rfl, ih]

theorem listing_reads (unbounded : body.to_ = none) :
    Reads (nextPage services body) (listing services body) body.pageLimit where
  grows := by
    intro reader from_ page answers
    obtain ⟨response, after, result, rfl⟩ := nextPage_eq_some answers
    obtain ⟨present, count, _, _, _, _, isAfter, _⟩ := route_ok result
    obtain ⟨room, short, _⟩ := roomExists_iff.mp present
    obtain ⟨added, grown, few⟩ := visible_pageBacklog services
      (body.startingAt from_) reader.met count short
    have pending := pending_tail services body after reader
    refine ⟨added, ?_, ?_⟩
    · rw [isAfter]
      exact grown
    · change added.length + (listing services body).pending
        ⟨after, reader.upcoming.tail⟩ ≤ _
      omega
  items := by
    intro reader from_ page answers
    obtain ⟨response, after, result, rfl⟩ := nextPage_eq_some answers
    obtain ⟨present, count, to_, events, isFrom, isTo, isAfter, taken, rfl⟩ :=
      route_ok result
    obtain ⟨room, short, _⟩ := roomExists_iff.mp present
    have shortAfter : after.data.roomidShortroomid body.roomId =
        some room := by
      rw [isAfter, (pageBacklog_extends _ _ _ _ room).roomidShortroomid]
      exact short
    have noBound : to_ = none := by
      unfold Request.toCount Request.startingAt at isTo
      rw [unbounded] at isTo
      cases isTo
      rfl
    have items := (takePage_ok_iff.mp taken).2
    rw [noBound, beforeBound_none] at items
    have given : (listing services body).given from_ = fun item =>
        decide (Landing.Given count body.dir item.1) := by
      funext item
      change (startCount body from_).any _ = _
      rw [startCount_eq isFrom, Option.any_some]
    rw [given]
    exact items.trans (congrArg (take _) (page_items shortAfter))
  next := by
    intro reader from_ page answers
    obtain ⟨response, after, result, rfl⟩ := nextPage_eq_some answers
    obtain ⟨_, _, _, events, _, _, _, _, rfl⟩ := route_ok result
    change (events.getLast?.map _).map some = events.getLast?.map _
    rw [Option.map_map]
    rfl

end

section

variable {services : Services} {body : Request} {reader reached : Reader}
  {from_ token : Option String} {to_ : PduCount}

def Startable (body : Request) (reader : Reader) (from_ : Option String) :
    Prop :=
  reader.backlog.data.roomExists body.roomId = true ∧
    ∃ count, (body.startingAt from_).fromCount = .ok count

theorem roomExists_pageBacklog {circumstances : Circumstances}
    {count : PduCount} {backlog : Backlog}
    (present : backlog.data.roomExists body.roomId = true) :
    (pageBacklog body circumstances count backlog).data.roomExists
      body.roomId = true := by
  obtain ⟨room, short, stored⟩ := roomExists_iff.mp present
  have extends_ := pageBacklog_extends body circumstances count backlog room
  obtain ⟨added, events, _⟩ := extends_.events
  refine roomExists_iff.mpr ⟨room, ?_, ?_⟩
  · rw [extends_.roomidShortroomid]
    exact short
  · rw [events]
    exact append_ne_nil_of_right_ne_nil added stored

variable {page : Page Reader (Option String) (PduCount × Pdu)}

theorem startable_next {next : Option String}
    (answers : nextPage services body reader from_ = some page)
    (goesOn : page.next = some next) : Startable body page.state next := by
  obtain ⟨response, after, result, rfl⟩ := nextPage_eq_some answers
  obtain ⟨present, count, to_, events, isFrom, _, isAfter, taken, rfl⟩ :=
    route_ok result
  have presentAfter : after.data.roomExists body.roomId = true := by
    rw [isAfter]
    exact roomExists_pageBacklog present
  refine ⟨presentAfter, ?_⟩
  obtain ⟨end_, isEnd, rfl⟩ := Option.map_eq_some_iff.mp goesOn
  obtain ⟨last, isLast, rfl⟩ := Option.map_eq_some_iff.mp isEnd
  have listed := mem_of_getLast? isLast
  rw [(takePage_ok_iff.mp taken).2] at listed
  have inside := (takeWhile_sublist _).subset
    (mem_of_mem_filter (mem_of_mem_take listed))
  obtain ⟨room, short, _⟩ := roomExists_iff.mp presentAfter
  rw [show (body.startingAt from_).roomId = body.roomId from rfl,
    range_eq short] at inside
  exact ⟨last.1, fromCount_countToString
    (reading_drawn (mem_of_mem_filter inside))⟩

theorem startable_of_reached (first : Startable body reader from_)
    (isReached : Reached (nextPage services body) reader from_ reached token) :
    Startable body reached token := by
  cases isReached with
  | here => exact first
  | step _ answers goesOn => exact startable_next answers goesOn

theorem nextPage_eq_some_iff {count : PduCount} {bound : Option PduCount}
    (present : reader.backlog.data.roomExists body.roomId = true)
    (isFrom : (body.startingAt from_).fromCount = .ok count)
    (isTo : body.toCount = .ok bound) :
    nextPage services body reader from_ = some page ↔
      ∃ events, takePage services reader.met body bound
          ((pageBacklog body reader.met count reader.backlog).range
            body.roomId body.dir count) = .ok events ∧
        page = {
          state := ⟨pageBacklog body reader.met count reader.backlog,
            reader.upcoming.tail⟩
          items := events
          next := (events.getLast?.map (fun event =>
            countToString event.1)).map some } := by
  have route := @route_eq services reader.met (body.startingAt from_) count
    bound reader.backlog present isFrom isTo
  unfold nextPage
  rw [route]
  change _ ↔ ∃ events, takePage services reader.met (body.startingAt from_)
    bound ((pageBacklog (body.startingAt from_) reader.met count
      reader.backlog).range (body.startingAt from_).roomId
        (body.startingAt from_).dir count) = .ok events ∧ _
  cases takePage services reader.met (body.startingAt from_) bound
    ((pageBacklog (body.startingAt from_) reader.met count
      reader.backlog).range (body.startingAt from_).roomId
        (body.startingAt from_).dir count) with
  | error error => simp
  | ok events =>
      simp only [Option.some.injEq, Except.ok.injEq, exists_eq_left']
      exact eq_comm

theorem stepsOn_iff (unbounded : body.to_ = none)
    (startable : Startable body reader from_) :
    StepsOn (nextPage services body) (listing services body) reader from_ ↔
      PageSteps services body reader from_ := by
  obtain ⟨present, count, isFrom⟩ := startable
  have isTo : body.toCount = .ok none := by
    unfold Request.toCount
    rw [unbounded]
  have isCount := startCount_eq isFrom
  have drawn : ∀ event, (∃ item ∈ visible services body
      (pageBacklog body reader.met count reader.backlog), item.1 = event) →
        event.Drawn := by
    rintro event ⟨item, member, rfl⟩
    exact visible_drawn member
  have given (item : PduCount × Pdu) :
      (listing services body).given from_ item = true ↔
        Landing.Given count body.dir item.1 := by
    change (startCount body from_).any _ = true ↔ _
    rw [isCount, Option.any_some, decide_eq_true_iff]
  have beyond (item : PduCount × Pdu) :
      (listing services body).beyond from_ item = true ↔
        Landing.Beyond count body.dir item.1 := by
    change (startCount body from_).any _ = true ↔ _
    rw [isCount, Option.any_some, decide_eq_true_iff]
  unfold StepsOn PageSteps
  simp only [nextPage_eq_some_iff present isFrom isTo, isCount,
    Option.some.injEq, forall_eq', given, beyond, takePage_ok_iff,
    beforeBound_none, Landing.steps_iff drawn]
  constructor
  · rintro ⟨page, ⟨events, ⟨calm, _⟩, rfl⟩, agree⟩
    refine ⟨calm, ?_⟩
    rintro event ⟨item, member, rfl⟩
    exact agree item member
  · rintro ⟨calm, agree⟩
    exact ⟨_, ⟨_, ⟨calm, rfl⟩, rfl⟩, fun item member =>
      agree item.1 ⟨item, member, rfl⟩⟩

theorem range_ordered {backlog : Backlog} {room : ShortRoomId}
    {count : PduCount}
    (short : backlog.data.roomidShortroomid body.roomId = some room) :
    (backlog.range body.roomId body.dir count).Pairwise
      (fun item other => Landing.Beyond item.1 body.dir other.1) := by
  rw [range_eq short]
  exact (reading_ordered backlog room body.dir).filter _

theorem bounded_iff (isTo : body.toCount = .ok (some to_))
    (startable : Startable body reader from_) :
    Bounded services body to_ reader from_ ↔
      MeetsBound services body to_ reader from_ := by
  obtain ⟨present, count, isFrom⟩ := startable
  have isCount := startCount_eq isFrom
  obtain ⟨room, short, _⟩ := roomExists_iff.mp
    (@roomExists_pageBacklog body reader.met count reader.backlog present)
  have ordered := @range_ordered body _ room count short
  unfold Bounded MeetsBound
  simp only [nextPage_eq_some_iff present isFrom isTo, isCount,
    Option.some.injEq, forall_eq', takePage_ok_iff]
  generalize (pageBacklog body reader.met count reader.backlog).range
    body.roomId body.dir count = items at ordered ⊢
  have page := @forall_mem_page_iff _ _ items
    (fun item => some item.1 ≠ some to_) (isShown services body)
    (fun item => decide (Landing.Beyond item.1 body.dir to_))
    body.pageLimit ordered
    (fun one _ other _ behind within => decide_eq_true
      (Landing.beyond_trans behind (of_decide_eq_true within)))
    (fun stop _ isStop item behind => by
      have same : stop.1 = to_ := by simpa using isStop
      rw [← same]
      exact decide_eq_true behind)
  simp only [decide_eq_true_iff, decide_eq_false_iff_not, not_not,
    Option.some.injEq] at page
  rw [← page]
  by_cases calm : ∀ item ∈ readItems services reader.met body
      (beforeBound (some to_) items), panics services body item = none
  · have noPanic : ¬ ∃ item ∈ readItems services reader.met body
        (beforeBound (some to_) items), panics services body item ≠ none := by
      rintro ⟨item, member, panics_⟩
      exact panics_ (calm item member)
    rw [or_iff_right noPanic]
    constructor
    · intro all
      exact all _ ⟨_, ⟨calm, rfl⟩, rfl⟩
    · rintro within page ⟨events, ⟨_, rfl⟩, rfl⟩
      exact within
  · refine iff_of_true ?_ (.inl ?_)
    · rintro page ⟨events, ⟨isCalm, _⟩, _⟩
      exact absurd isCalm calm
    · simpa only [not_forall, exists_prop] using calm

/-- All pages are right if and only if each meets its condition. -/
theorem messages_right_iff (services : Services) (body : Request)
    (reader : Reader) (start : PduCount)
    (present : reader.backlog.data.roomExists body.roomId = true)
    (positive : 0 < body.limit) (isFrom : body.fromCount = .ok start) :
    (body.to_ = none → Complete (nextPage services body)
        (listing services body) reader body.from_) ∧
      (∀ to_, body.toCount = .ok (some to_) → ∀ reached from_,
        Reached (nextPage services body) reader body.from_ reached from_ →
          Bounded services body to_ reached from_) ↔
    (body.to_ = none → ∀ reached from_,
        Reached (nextPage services body) reader body.from_ reached from_ →
          PageSteps services body reached from_) ∧
      (∀ to_, body.toCount = .ok (some to_) → ∀ reached from_,
        Reached (nextPage services body) reader body.from_ reached from_ →
          MeetsBound services body to_ reached from_) := by
  have startable : Startable body reader body.from_ := ⟨present, start, isFrom⟩
  refine and_congr (forall_congr' fun unbounded => ?_)
    (forall₂_congr fun to_ isTo => ?_)
  · rw [complete_iff_forall_reached (listing_lawful positive)
      (listing_reads unbounded)]
    refine forall₃_congr fun reached from_ isReached => ?_
    exact stepsOn_iff unbounded (startable_of_reached startable isReached)
  · refine forall₃_congr fun reached from_ isReached => ?_
    exact bounded_iff isTo (startable_of_reached startable isReached)

end

namespace TwoEvents

def event : Pdu := Pdu.message "$e" "!r:h" "@a:h"

def data : TimelineData :=
  { TimelineData.oneOfEach with readPdu := fun _ => some event }

theorem counts {room : ShortRoomId} {count : PduCount}
    (has : data.HasCount room count) :
    count = .backfilled (-1) ∨ count = .normal 1 := by
  obtain ⟨json, stored⟩ := has
  rcases SortedTable.mem_put.mp stored with second | earlier
  · have same := raw_bytes_inj (Prod.mk.inj second).1
    exact .inr (PduId.mk.inj same).2
  · rcases SortedTable.mem_put.mp earlier.1 with first | none
    · have same := raw_bytes_inj (Prod.mk.inj first).1
      exact .inl (PduId.mk.inj same).2
    · exact absurd none.1 SortedTable.not_mem_empty

def backlog : Backlog where
  data := data
  counter := 1
  readable := fun _ _ => rfl
  counted := by
    intro room count has
    obtain rfl | rfl := counts has
    · decide
    · decide

def services : Services where
  ourServer := "h"
  ignoreMessagesFromServerNames := fun _ => false
  sendMessagesFromIgnoredUsersToClient := false
  isIgnoredMessageType := fun _ => false
  userIsIgnored := fun _ _ => false
  pduShortstatehash := fun _ => none
  historyVisibility := fun _ => none
  userWasInvited := fun _ _ => true
  userWasJoined := fun _ _ => true
  isJoined := fun _ _ => true

def request (from_ to_ : Option String) : Request where
  senderUser := "@a:h"
  roomId := "!r:h"
  from_ := from_
  to_ := to_
  dir := .forward
  limit := 10
  filter := ⟨[], none, [], none, [], none, none⟩

def reader : Reader := ⟨backlog, []⟩

/-- The first event is read again and again from its own count on, and a bound
that no event has does not end a page. -/
theorem pages_wrong :
    ¬ Complete (nextPage services (request (some "-1") none))
        (listing services (request (some "-1") none)) reader (some "-1") ∧
      (request none (some "0")).toCount = .ok (some (.backfilled 0)) ∧
      ¬ Bounded services (request none (some "0")) (.backfilled 0) reader
        none := by
  refine ⟨fun complete => ?_, rfl, fun bounded => ?_⟩
  · have first := (complete_iff_forall_reached (listing_lawful (by decide))
      (listing_reads rfl)).mp complete reader _ .here
    have steps := ((stepsOn_iff rfl ⟨rfl, _, rfl⟩).mp first _ rfl).2
    have isVisible : (.backfilled (-1), event) ∈ visible services
        (request (some "-1") none) backlog := mem_cons_self
    rcases steps with low | after
    · exact absurd low (by decide)
    · exact absurd (after _ ⟨_, isVisible, rfl⟩) (by decide)
  · have beyond := bounded _ rfl (.normal 1, event)
      (mem_cons_of_mem _ mem_cons_self)
    exact absurd beyond (by decide)

theorem nextPage_none : nextPage services (request none none) reader none =
    some ⟨reader, [(.backfilled (-1), event), (.normal 1, event)],
      some (some "1")⟩ :=
  rfl

theorem nextPage_one : nextPage services (request none none) reader
    (some "1") = some ⟨reader, [], none⟩ :=
  rfl

theorem reached_cases {reached : Reader} {from_ : Option String}
    (isReached : Reached (nextPage services (request none none)) reader none
      reached from_) :
    reached = reader ∧ (from_ = none ∨ from_ = some "1") := by
  induction isReached with
  | here => exact ⟨rfl, .inl rfl⟩
  | step _ answers goesOn ih =>
      obtain ⟨rfl, rfl | rfl⟩ := ih
      · rw [nextPage_none] at answers
        cases answers
        cases goesOn
        exact ⟨rfl, .inr rfl⟩
      · rw [nextPage_one] at answers
        cases answers
        cases goesOn

theorem pages_complete : Complete (nextPage services (request none none))
    (listing services (request none none)) reader none := by
  refine ((messages_right_iff services (request none none) reader .min rfl
    (by decide) rfl).mpr ⟨fun _ reached from_ isReached => ?_, ?_⟩).1 rfl
  · obtain ⟨rfl, rfl | rfl⟩ := reached_cases isReached
    · rintro count isCount
      cases isCount
      exact ⟨by decide, .inl (by decide)⟩
    · rintro count isCount
      cases isCount
      exact ⟨by decide, .inl (by decide)⟩
  · intro to_ isTo
    cases isTo

end TwoEvents

end ArcanaServer.Api.Messages
