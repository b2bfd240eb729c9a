import ArcanaServer.Database.RoundTrip

namespace ArcanaServer.Database

open Library Component
open Sending (separator)
open List

/-! Which keys start with a tuple that ends with `Interfix`. -/

namespace Component

/-- What prefixes are made of. -/
def Keyed : Component → Prop
  | .str _ | .u64 _ | .i64 _ => True
  | .option _ | .bytes _ => False

instance : (component : Component) → Decidable component.Keyed
  | .str _ | .u64 _ | .i64 _ => isTrue trivial
  | .option _ | .bytes _ => isFalse id

end Component

def closed (components : List Component) : Key :=
  components.flatMap fun component => component.content ++ [separator]

section

variable {first shared : List Component} {tail : Key}

theorem closed_cons (component : Component) (rest : List Component) :
    closed (component :: rest) =
      component.content ++ separator :: closed rest := by
  unfold closed
  rw [flatMap_cons, append_assoc, singleton_append]

theorem joined_cons {rest : List Component} (component : Component)
    (more : rest ≠ []) :
    joined (component :: rest) =
      component.content ++ separator :: joined rest := by
  obtain ⟨next, others, isRest⟩ := exists_cons_of_ne_nil more
  rw [isRest]
  rfl

theorem joined_append {rest : List Component} (components : List Component)
    (more : rest ≠ []) :
    joined (components ++ rest) = closed components ++ joined rest := by
  induction components with
  | nil => rfl
  | cons component others inductionHypothesis =>
      have moreLater : others ++ rest ≠ [] := by
        intro none
        exact more (append_eq_nil_iff.mp none).2
      rw [cons_append, joined_cons component moreLater,
        inductionHypothesis, closed_cons, append_assoc, cons_append]

theorem interfixed_eq_closed (components : List Component) :
    interfixed components = closed components := by
  cases components with
  | nil => rfl
  | cons component rest =>
      have ended : joined (component :: rest ++ [.str ""]) =
          closed (component :: rest) ++ joined [.str ""] :=
        joined_append (component :: rest) (cons_ne_nil _ _)
      have trailed : joined (component :: rest ++ [.str ""]) =
          joined (component :: rest) ++ [separator] := by
        unfold joined trailing
        rw [cons_append]
        simp only [flatMap_append, flatMap_cons, flatMap_nil,
          append_nil, append_assoc]
        rfl
      rw [trailed] at ended
      unfold interfixed
      rw [isEmpty_cons, if_neg Bool.false_ne_true, ended]
      exact append_nil _

/-- Where a component of a given type ends is plain from the bytes. -/
theorem content_append_inj {one other : Component} {oneRest otherRest : Key}
    (keyed : one.Keyed) (kind : one.kind = other.kind)
    (same : one.content ++ separator :: oneRest =
      other.content ++ separator :: otherRest) :
    one = other ∧ oneRest = otherRest := by
  have split : one.content = other.content →
      one.content = other.content ∧ oneRest = otherRest := by
    intro contents
    rw [contents] at same
    exact ⟨contents, tail_eq_of_cons_eq (append_cancel_left same)⟩
  cases one with
  | str text =>
      cases other with
      | str otherText =>
          have read := congrArg
            (takeWhile fun byte => decide (byte ≠ separator)) same
          change (strBytes text ++ _).takeWhile _ =
            (strBytes otherText ++ _).takeWhile _ at read
          rw [Deserializer.takeWhile_append (separator_notMem_strBytes text)
              (.inr rfl),
            Deserializer.takeWhile_append (separator_notMem_strBytes otherText)
              (.inr rfl)] at read
          exact ⟨congrArg str (strBytes_inj read), (split read).2⟩
      | u64 | i64 | option | bytes => cases kind
  | u64 value =>
      cases other with
      | u64 otherValue =>
          have lengths : (u64Bytes value).length =
              (u64Bytes otherValue).length := by
            rw [u64Bytes_length, u64Bytes_length]
          have contents := (append_inj same lengths).1
          exact ⟨congrArg u64 (u64Bytes_inj contents),
            (split contents).2⟩
      | str | i64 | option | bytes => cases kind
  | i64 value =>
      cases other with
      | i64 otherValue =>
          have lengths : (i64Bytes value).length =
              (i64Bytes otherValue).length := by
            unfold i64Bytes
            rw [u64Bytes_length, u64Bytes_length]
          have contents := (append_inj same lengths).1
          exact ⟨congrArg i64 (i64Bytes_inj contents),
            (split contents).2⟩
      | str | u64 | option | bytes => cases kind
  | option value | bytes value => exact keyed.elim

theorem closed_prefix_iff (keyed : ∀ component ∈ first, component.Keyed)
    (kinds : first.map kind = shared.map kind) :
    closed first <+: closed shared ++ tail ↔ first = shared := by
  constructor
  · intro starts
    induction first generalizing shared tail with
    | nil =>
        rw [map_nil] at kinds
        exact (map_eq_nil_iff.mp kinds.symm).symm
    | cons component rest inductionHypothesis =>
        cases shared with
        | nil => cases kinds
        | cons other others =>
            rw [map_cons, map_cons, List.cons.injEq] at kinds
            obtain ⟨later, same⟩ := starts
            rw [closed_cons, closed_cons, append_assoc, append_assoc,
              cons_append, cons_append] at same
            have parts := content_append_inj
              (keyed component mem_cons_self) kinds.1 same
            have rests := inductionHypothesis
              (fun inner member =>
                keyed inner (mem_cons_of_mem component member))
              kinds.2 ⟨later, parts.2⟩
            rw [parts.1, rests]
  · intro same
    rw [same]
    exact prefix_append _ _

/-- The rows under a prefix are those that agree with it in every
component. -/
theorem interfix_prefix_iff (debug : Bool) (first second : List Component)
    (keyed : ∀ component ∈ first, component.Keyed)
    (longer : first.length < second.length) (kinds : first.map kind =
      (second.take first.length).map kind) :
    ∃ start key, serializeToVec debug (first.map .component ++ [.interfix]) =
        .ok start ∧
      serializeToVec debug (second.map .component) = .ok key ∧
      (start <+: key ↔ first = second.take first.length) := by
  refine ⟨interfixed first, joined second, serializeToVec_interfix debug first,
    serializeToVec_components debug second, ?_⟩
  have more : second.drop first.length ≠ [] := by
    intro none
    exact absurd longer (Nat.not_lt.mpr (drop_eq_nil_iff.mp none))
  have parts : joined second = closed (second.take first.length) ++
      joined (second.drop first.length) := by
    rw [← joined_append _ more, take_append_drop]
  rw [interfixed_eq_closed, parts]
  exact closed_prefix_iff keyed kinds

/-- A count whose first byte is a separator, behind an empty text. -/
theorem interfix_prefix_iff_count : ∃ start key, serializeToVec true
        ([.str "", .u64 0xFF00000000000000].map .component ++ [.interfix]) =
          .ok start ∧
      serializeToVec true ([.str "", .u64 0xFF00000000000000,
        .str "a"].map .component) = .ok key ∧
      (start <+: key ↔
        ([.str "", .u64 0xFF00000000000000] : List Component) =
          [.str "", .u64 0xFF00000000000000, .str "a"].take 2) :=
  interfix_prefix_iff true [.str "", .u64 0xFF00000000000000]
    [.str "", .u64 0xFF00000000000000, .str "a"] (by decide) (by decide)
    (by decide)

end

def textKey (texts : List String) : Key := joined (texts.map .str)

def textPrefix (texts : List String) : Key := interfixed (texts.map .str)

variable {init front : List String} {last text : String} {rest : List String}

theorem textKey_append (more : rest ≠ []) : textKey (front ++ rest) =
      closed (front.map .str) ++ textKey rest := by
  have others : rest.map str ≠ [] := by
    intro none
    exact more (map_eq_nil_iff.mp none)
  unfold textKey
  rw [map_append]
  exact joined_append _ others

theorem textKey_cons : textKey (text :: rest) =
    strBytes text ++ trailing (rest.map .str) := by
  rfl

theorem keyed_texts (texts : List String) :
    ∀ component ∈ texts.map str, component.Keyed := by
  intro component member
  obtain ⟨text, _, isText⟩ := mem_map.mp member
  rw [← isText]
  trivial

theorem kinds_texts (lengths : init.length = front.length) :
    (init.map str).map kind =
      (front.map str).map kind := by
  have kinds : ∀ texts : List String,
      (texts.map str).map kind =
        replicate texts.length Kind.str := by
    intro texts
    rw [map_map]
    exact map_const'
  rw [kinds, kinds, lengths]

theorem closed_texts_prefix_iff {tail : Key}
    (lengths : init.length = front.length) :
    closed (init.map .str) <+: closed (front.map .str) ++ tail ↔
      init = front := by
  rw [closed_prefix_iff (keyed_texts init) (kinds_texts lengths)]
  exact List.map_inj_right fun _ _ => str.inj

/-- What holds no separator ends before the first one. -/
theorem prefix_of_clear {clear whole tail : Key}
    (without : separator ∉ clear) (ends : Deserializer.Ends tail) :
    clear <+: whole ++ tail ↔ clear <+: whole := by
  constructor
  · intro starts
    rcases prefix_or_prefix_of_prefix starts (prefix_append _ _) with
      inside | longer
    · exact inside
    · obtain ⟨more, isMore⟩ := longer
      rw [← isMore, prefix_append_right_inj] at starts
      cases more with
      | nil =>
          have same : clear = whole := isMore.symm.trans (append_nil whole)
          exact same ▸ prefix_rfl
      | cons byte later =>
          obtain ⟨beyond, isTail⟩ := starts
          have first : byte = separator := by
            rcases ends with none | begins
            · rw [none] at isTail
              cases isTail
            · rw [← isTail] at begins
              exact Option.some.inj begins
          refine absurd ?_ without
          rw [← isMore, first]
          exact mem_append_right _ mem_cons_self
  · intro starts
    exact starts.trans (prefix_append _ _)

theorem suffix_of_clear {clear front text : Key} (without : separator ∉ clear) :
    clear <:+ front ++ separator :: text ↔ clear <:+ text := by
  have whole : separator :: text <:+ front ++ separator :: text :=
    suffix_append front _
  constructor
  · intro ends
    rcases suffix_or_suffix_of_suffix ends whole with inside | longer
    · rcases suffix_cons_iff.mp inside with same | later
      · exact absurd (same ▸ mem_cons_self) without
      · exact later
    · exact absurd (longer.subset mem_cons_self) without
  · intro ends
    exact (ends.trans (suffix_cons separator text)).trans whole

theorem textKey_prefix_iff (lengths : init.length = front.length) :
    textKey (init ++ [last]) <+: textKey (front ++ text :: rest) ↔
      init = front ∧ strBytes last <+: strBytes text := by
  rw [textKey_append (cons_ne_nil last []),
    textKey_append (cons_ne_nil text rest)]
  constructor
  · intro starts
    have fronts := (closed_texts_prefix_iff lengths).mp
      ((prefix_append _ _).trans starts)
    rw [fronts, prefix_append_right_inj, textKey_cons, textKey_cons,
      map_nil] at starts
    have lasts : strBytes last <+: strBytes text ++ trailing _ :=
      (prefix_append _ _).trans starts
    exact ⟨fronts, (prefix_of_clear (separator_notMem_strBytes last)
      (Deserializer.ends_trailing _)).mp lasts⟩
  · intro ⟨fronts, lasts⟩
    rw [fronts, prefix_append_right_inj, textKey_cons, textKey_cons, map_nil]
    have whole : strBytes last ++ trailing [] = strBytes last := append_nil _
    rw [whole]
    exact lasts.trans (prefix_append _ _)

theorem textPrefix_joined_iff {others : List Component}
    (lengths : init.length = front.length) (more : others ≠ []) :
    textPrefix init <+: joined (front.map .str ++ others) ↔ init = front := by
  unfold textPrefix
  rw [interfixed_eq_closed, joined_append _ more]
  exact closed_texts_prefix_iff lengths

theorem textPrefix_prefix_iff (lengths : init.length = front.length)
    (more : rest ≠ []) :
    textPrefix init <+: textKey (front ++ rest) ↔ init = front := by
  unfold textPrefix
  rw [interfixed_eq_closed, textKey_append more]
  exact closed_texts_prefix_iff lengths

theorem textKey_inj {first second : List String}
    (lengths : first.length = second.length)
    (same : textKey first = textKey second) : first = second := by
  rcases eq_nil_or_concat first with none | some
  · rw [none] at lengths ⊢
    exact (eq_nil_of_length_eq_zero lengths.symm).symm
  · obtain ⟨init, last, isFirst⟩ := some
    rcases eq_nil_or_concat second with none | others
    · rw [none] at lengths ⊢
      exact eq_nil_of_length_eq_zero lengths
    · obtain ⟨front, text, isSecond⟩ := others
      rw [concat_eq_append] at isFirst isSecond
      rw [isFirst, isSecond] at lengths same ⊢
      rw [length_append, length_append] at lengths
      have inits : init.length = front.length := Nat.add_right_cancel lengths
      have starts : textKey (init ++ [last]) <+:
          textKey (front ++ [text]) := same ▸ prefix_rfl
      have started : textKey (front ++ [text]) <+:
          textKey (init ++ [last]) := same ▸ prefix_rfl
      have forward := (textKey_prefix_iff inits).mp starts
      have back := (textKey_prefix_iff inits.symm).mp started
      have lasts := List.IsPrefix.eq_of_length_le forward.2 back.2.length_le
      rw [forward.1, strBytes_inj lasts]

theorem fromSlice_textKey (debug : Bool) (parts : List (Kind × String))
    (several : 2 ≤ parts.length)
    (kinds : ∀ part ∈ parts, part.1 = .str ∨ part.1 = .ignore) :
    fromSlice debug (parts.map Prod.fst) (textKey (parts.map Prod.snd)) =
      .ok (parts.map fun part => Reading.item ⟨part.1, .str part.2⟩) := by
  let readings := parts.map fun part => Reading.mk part.1 (.str part.2)
  have components : readings.map Reading.component =
      (parts.map Prod.snd).map .str := by
    rw [map_map, map_map]
    rfl
  have sound : ∀ reading ∈ readings, reading.Sound := by
    intro reading member
    obtain ⟨⟨kind, text⟩, inside, same⟩ := mem_map.mp member
    rw [← same]
    rcases kinds _ inside with isKept | isIgnored
    · dsimp only at isKept ⊢
      rw [isKept]
      exact .same (.str text) trivial
    · dsimp only at isIgnored ⊢
      rw [isIgnored]
      exact .ignored text
  have delimited : Deserializer.Delimited
      (readings.map Reading.component) := by
    rw [components]
    intro component member
    obtain ⟨text, _, isText⟩ := mem_map.mp (mem_of_mem_dropLast member)
    rw [← isText]
    exact id
  have read := fromSlice_joined debug
    (by rw [length_map]; exact several) sound delimited
  have fields : readings.map Reading.kind = parts.map Prod.fst := by
    rw [map_map]
    rfl
  have items : readings.map Reading.item =
      parts.map fun part => Reading.item ⟨part.1, .str part.2⟩ := by
    rw [map_map]
    rfl
  rw [components, fields, items] at read
  exact read

end ArcanaServer.Database
