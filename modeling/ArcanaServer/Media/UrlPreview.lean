import ArcanaServer.Database.Bytes
import Mathlib.Algebra.Group.Nat.Defs

namespace ArcanaServer.Media

open Database Library Option
open Sending (separator bigEndian bigEndian_length)
open List SortedTable

/-! The stored previews of URLs: their fields with separators in between. -/

/-- A number of so many bytes. -/
abbrev Number (length : Nat) := Fin (256 ^ length)

structure UrlPreviewData where
  title : Option String
  description : Option String
  image : Option String
  imageSize : Option (Number 8)
  imageWidth : Option (Number 4)
  imageHeight : Option (Number 4)
  video : Option String
  videoSize : Option (Number 8)
  videoWidth : Option (Number 4)
  videoHeight : Option (Number 4)
  audio : Option String
  audioSize : Option (Number 8)
  deriving DecidableEq

def textBytes (text : Option String) : Key := strBytes (text.getD "")

def numberBytes {length : Nat} (number : Option (Number length)) : Key :=
  bigEndian length ((number.map Fin.val).getD 0)

def nextText (value : Option Key) : Option String :=
  (value.bind stringFromBytes).filter (fun text => text ≠ "")

def nextNumber {length : Nat} (value : Option Key) : Option (Number length) :=
  ((value.map (fun bytes =>
    if bytes.length = length then fromBigEndian bytes else 0)).filter
      (fun number => number ≠ 0)).map (fun number =>
        ⟨number % 256 ^ length, Nat.mod_lt _ (Nat.pow_pos (by decide))⟩)

namespace UrlPreviewData

variable (data : UrlPreviewData)

def fields : List Key :=
  [textBytes data.title, textBytes data.description, textBytes data.image,
    numberBytes data.imageSize, numberBytes data.imageWidth,
    numberBytes data.imageHeight, textBytes data.video,
    numberBytes data.videoSize, numberBytes data.videoWidth,
    numberBytes data.videoHeight, textBytes data.audio,
    numberBytes data.audioSize]

def ofValues (values : List Key) : UrlPreviewData where
  title := nextText values[0]?
  description := nextText values[1]?
  image := nextText values[2]?
  imageSize := nextNumber values[3]?
  imageWidth := nextNumber values[4]?
  imageHeight := nextNumber values[5]?
  video := nextText values[6]?
  videoSize := nextNumber values[7]?
  videoWidth := nextNumber values[8]?
  videoHeight := nextNumber values[9]?
  audio := nextText values[10]?
  audioSize := nextNumber values[11]?

/-- No text is empty and no number is zero. -/
def Plain : Prop :=
  (∀ text ∈ [data.title, data.description, data.image, data.video, data.audio],
    text ≠ some "") ∧
  (∀ number ∈ [data.imageSize, data.videoSize, data.audioSize],
    number ≠ some 0) ∧
  ∀ number ∈ [data.imageWidth, data.imageHeight, data.videoWidth,
    data.videoHeight], number ≠ some 0

-- Not by going through all numbers.
instance : Decidable data.Plain :=
  @instDecidableAnd _ _ (decidableBAll _ _)
    (@instDecidableAnd _ _ (decidableBAll _ _) (decidableBAll _ _))

end UrlPreviewData

abbrev UrlPreviews := SortedTable Key Key

def setUrlPreview (previews : UrlPreviews) (url : String)
    (data : UrlPreviewData) (timestamp : UInt64) : UrlPreviews :=
  previews.put (strBytes url)
    ([separator].intercalate (u64Bytes timestamp :: data.fields))

def getUrlPreview (previews : UrlPreviews) (url : String) :
    Option UrlPreviewData :=
  (previews.get (strBytes url)).map (fun values =>
    .ofValues (values.splitOn separator).tail)

section

variable {α : Type} [DecidableEq α] {sep : α}

theorem not_mem_of_mem_splitOn {list piece : List α}
    (member : piece ∈ list.splitOn sep) : sep ∉ piece := by
  induction list generalizing piece with
  | nil => simp_all
  | cons first rest ih =>
      rw [splitOn_cons_eq_if_modifyHead] at member
      obtain ⟨head, tail, split⟩ :=
        exists_cons_of_ne_nil (splitOn_ne_nil sep rest)
      rw [split] at ih member
      split at member
      · rcases mem_cons.mp member with same | inside
        · rw [same]; exact not_mem_nil
        · exact ih inside
      next differs =>
        rcases mem_cons.mp member with same | inside
        · rw [same, mem_cons, not_or]
          exact ⟨fun isSep => differs (by simp [isSep]),
            ih mem_cons_self⟩
        · exact ih (mem_cons_of_mem head inside)

theorem splitOn_intercalate_cons (first : List α) (rest : List (List α)) :
    ([sep].intercalate (first :: rest)).splitOn sep =
      (first :: rest).flatMap (splitOn sep) := by
  induction rest generalizing first with
  | nil => simp [intercalate]
  | cons second rest ih =>
      have step : [sep].intercalate (first :: second :: rest) =
          first ++ sep :: [sep].intercalate (second :: rest) := by
        simp [intercalate]
      rw [step, splitOn_append_cons_self, ih, flatMap_cons (x := first)]

theorem tail_splitOn_eq_nil {list : List α} :
    (list.splitOn sep).tail = [] ↔ sep ∉ list := by
  constructor
  · intro none member
    obtain ⟨before, after, rfl⟩ := append_of_mem member
    rw [splitOn_append_cons_self, tail_append_of_ne_nil
      (splitOn_ne_nil sep before)] at none
    exact splitOn_ne_nil sep after (append_eq_nil_iff.mp none).2
  · intro clean
    rw [splitOn_eq_singleton clean, tail_cons]

end

section

variable {length : Nat}

theorem bigEndian_fromBigEndian (bytes : Key) :
    bigEndian bytes.length (fromBigEndian bytes) = bytes ∧
      fromBigEndian bytes < 256 ^ bytes.length := by
  induction bytes using reverseRecOn with
  | nil => exact ⟨rfl, Nat.one_pos⟩
  | append_singleton bytes byte ih =>
      have shifted : fromBigEndian (bytes ++ [byte]) =
          256 * fromBigEndian bytes + byte.val := by
        simp [fromBigEndian]
      have quotient : (256 * fromBigEndian bytes + byte.val) / 256 =
          fromBigEndian bytes := by omega
      have last : Fin.ofNat 256 (256 * fromBigEndian bytes + byte.val) =
          byte := by
        ext
        simp
      rw [length_append, length_singleton, bigEndian, shifted,
        quotient, ih.1, last, Nat.pow_succ]
      exact ⟨rfl, by have := byte.isLt; omega⟩

theorem nextText_textBytes {text : Option String} (plain : text ≠ some "") :
    nextText (some (textBytes text)) = text := by
  unfold nextText textBytes
  rw [bind_some, stringFromBytes_strBytes]
  cases text with
  | none => rfl
  | some text =>
      have nonempty : text ≠ "" := fun none => plain (congrArg some none)
      simp [nonempty]

theorem nextNumber_numberBytes {number : Option (Number length)}
    (plain : number ≠ some ⟨0, Nat.pow_pos (by decide)⟩) :
    nextNumber (some (numberBytes number)) = number := by
  unfold nextNumber numberBytes
  rw [map_some, if_pos (bigEndian_length _ _)]
  cases number with
  | none =>
      rw [map_none, getD_none,
        fromBigEndian_bigEndian (Nat.pow_pos (by decide))]
      rfl
  | some number =>
      have positive : number.val ≠ 0 := fun zero =>
        plain (congrArg some (Fin.ext zero))
      rw [map_some, getD_some,
        fromBigEndian_bigEndian number.isLt]
      simp [positive, Nat.mod_eq_of_lt number.isLt]

theorem separator_notMem_bigEndian_zero : separator ∉ bigEndian length 0 := by
  induction length with
  | zero => exact not_mem_nil
  | succ length ih =>
      rw [bigEndian, Nat.zero_div, mem_append, mem_singleton, not_or]
      exact ⟨ih, by decide⟩

/-- A number that was read from a value without separators has none. -/
theorem numberBytes_clean {value : Option Key}
    (clean : ∀ bytes, value = some bytes → separator ∉ bytes) :
    separator ∉ numberBytes (nextNumber value : Option (Number length)) := by
  unfold nextNumber
  cases value with
  | none => exact separator_notMem_bigEndian_zero
  | some bytes =>
      rw [map_some]
      split
      next whole =>
        subst whole
        obtain ⟨same, below⟩ := bigEndian_fromBigEndian bytes
        rw [filter_some]
        split
        · change separator ∉ bigEndian _ (fromBigEndian bytes % _)
          rw [Nat.mod_eq_of_lt below, same]
          exact clean bytes rfl
        · exact separator_notMem_bigEndian_zero
      · exact separator_notMem_bigEndian_zero

end

inductive Kind where
  | text
  | number (length : Nat)

/-- What is written again for a value that was read. -/
def Kind.rewritten (value : Option Key) : Kind → Key
  | .text => textBytes (nextText value)
  | .number length => numberBytes (nextNumber value : Option (Number length))

/-- The fields that values behind the given ones spell, which are read before
them. -/
def spelled (shift : List Key) (kinds : List Kind) : List Key :=
  kinds.foldl (fun fields kind =>
    fields ++ [kind.rewritten (shift ++ fields)[fields.length]?]) []

def rewriteAll (values : List Key) (kinds : List Kind) : List Key :=
  kinds.mapIdx (fun index kind => kind.rewritten values[index]?)

section

variable {shift fields : List Key} {kinds : List Kind} {kind : Kind}

theorem length_rewriteAll : (rewriteAll fields kinds).length = kinds.length :=
  length_mapIdx

theorem spelled_concat : spelled shift (kinds ++ [kind]) =
    spelled shift kinds ++ [kind.rewritten (shift ++
      spelled shift kinds)[(spelled shift kinds).length]?] :=
  foldl_append

theorem length_spelled : (spelled shift kinds).length = kinds.length := by
  induction kinds using reverseRecOn with
  | nil => rfl
  | append_singleton kinds kind ih => simp [spelled_concat, ih]

/-- The last field is not read by the kinds before it. -/
theorem rewriteAll_concat (some : shift ≠ []) {last : Key}
    (same : fields.length = kinds.length) :
    rewriteAll (shift ++ (fields ++ [last])) (kinds ++ [kind]) =
      rewriteAll (shift ++ fields) kinds ++
        [kind.rewritten (shift ++ fields)[fields.length]?] := by
  have inside {index : Nat} (within : index ≤ fields.length) :
      (shift ++ (fields ++ [last]))[index]? = (shift ++ fields)[index]? := by
    rw [← append_assoc, List.getElem?_append_left]
    rw [length_append]
    have := length_pos_of_ne_nil some
    omega
  unfold rewriteAll
  rw [mapIdx_concat, inside same.ge, same]
  refine congrArg (· ++ _) (ext_getElem? fun index => ?_)
  rw [List.getElem?_mapIdx, List.getElem?_mapIdx]
  cases found : kinds[index]? with
  | none => rfl
  | some kind =>
      have below := (List.getElem?_eq_some_iff.mp found).1
      rw [map_some, map_some, inside (same ▸ below.le)]

theorem rewriteAll_eq_self_iff (some : shift ≠ []) :
    rewriteAll (shift ++ fields) kinds = fields ↔
      fields = spelled shift kinds := by
  induction kinds using reverseRecOn generalizing fields with
  | nil => exact eq_comm
  | append_singleton kinds kind ih =>
      cases fields using reverseRecOn with
      | nil =>
          refine iff_of_false (fun none => ?_) (fun none => ?_)
          · simpa using (congrArg List.length none).symm.trans length_rewriteAll
          · simp [spelled_concat] at none
      | append_singleton fields last =>
          by_cases same : fields.length = kinds.length
          · rw [rewriteAll_concat some same, spelled_concat,
              append_singleton_inj, append_singleton_inj, ih]
            refine and_congr_right fun isSpelled => ?_
            rw [← isSpelled, eq_comm]
          · refine iff_of_false (fun whole => ?_) (fun whole => ?_)
            · have := (congrArg List.length whole).symm.trans length_rewriteAll
              simp at this
              exact same this
            · have := (congrArg List.length whole).trans length_spelled
              simp at this
              exact same this

end

namespace UrlPreviewData

variable {data : UrlPreviewData} {values : List Key}

def kinds : List Kind :=
  [.text, .text, .text, .number 8, .number 4, .number 4, .text, .number 8,
    .number 4, .number 4, .text, .number 8]

theorem fields_ofValues :
    (ofValues values).fields = rewriteAll values kinds := rfl

theorem ofValues_fields (plain : data.Plain) : ofValues data.fields = data := by
  obtain ⟨texts, sizes, lengths⟩ := plain
  simp only [forall_mem_cons] at texts sizes lengths
  obtain ⟨title, description, image, video, audio, _⟩ := texts
  obtain ⟨imageSize, videoSize, audioSize, _⟩ := sizes
  obtain ⟨imageWidth, imageHeight, videoWidth, videoHeight, _⟩ := lengths
  simp only [ofValues, fields, List.getElem?_cons_zero,
    List.getElem?_cons_succ, nextText_textBytes title,
    nextText_textBytes description, nextText_textBytes image,
    nextText_textBytes video, nextText_textBytes audio,
    nextNumber_numberBytes imageSize, nextNumber_numberBytes videoSize,
    nextNumber_numberBytes audioSize, nextNumber_numberBytes imageWidth,
    nextNumber_numberBytes imageHeight, nextNumber_numberBytes videoWidth,
    nextNumber_numberBytes videoHeight]

theorem ofValues_clean (clean : ∀ value ∈ values, separator ∉ value) :
    ∀ field ∈ (ofValues values).fields, separator ∉ field := by
  intro field member
  rw [fields_ofValues, rewriteAll, mem_mapIdx] at member
  obtain ⟨index, _, rfl⟩ := member
  cases kinds[index] with
  | text => exact separator_notMem_strBytes _
  | number length =>
      exact numberBytes_clean fun bytes isValue =>
        clean bytes (mem_of_getElem? isValue)

/-- The fields behind the values that the timestamp falls into. -/
def survivor (timestamp : UInt64) : UrlPreviewData :=
  let shift := ((u64Bytes timestamp).splitOn separator).tail
  ofValues (shift ++ spelled shift kinds)

end UrlPreviewData

open UrlPreviewData

variable {previews : UrlPreviews} {url : String} {data : UrlPreviewData}
  {timestamp : UInt64}

/-- A preview comes back if and only if no number has a separator in it, and
the timestamp has none or the preview is the one that it spells. -/
theorem getUrlPreview_setUrlPreview_iff (plain : data.Plain) :
    getUrlPreview (setUrlPreview previews url data timestamp) url = some data ↔
      (∀ field ∈ data.fields, separator ∉ field) ∧
        (separator ∈ u64Bytes timestamp → data = survivor timestamp) := by
  have read : getUrlPreview (setUrlPreview previews url data timestamp) url =
      some (ofValues (((u64Bytes timestamp).splitOn separator).tail ++
        data.fields.flatMap (splitOn separator))) := by
    unfold getUrlPreview setUrlPreview
    rw [get_put, if_pos rfl, map_some,
      splitOn_intercalate_cons, flatMap_cons,
      tail_append_of_ne_nil (splitOn_ne_nil _ _)]
  have whole (clean : ∀ field ∈ data.fields, separator ∉ field) :
      data.fields.flatMap (splitOn separator) = data.fields := by
    rw [flatMap_congr fun field member =>
      splitOn_eq_singleton (clean field member), flatMap_singleton']
  rw [read, some.injEq]
  constructor
  · intro same
    have clean : ∀ field ∈ data.fields, separator ∉ field := by
      rw [← same]
      refine ofValues_clean fun value member => ?_
      rcases mem_append.mp member with early | late
      · exact not_mem_of_mem_splitOn (mem_of_mem_tail early)
      · obtain ⟨field, _, piece⟩ := mem_flatMap.mp late
        exact not_mem_of_mem_splitOn piece
    refine ⟨clean, fun shifted => ?_⟩
    rw [whole clean] at same
    have some : ((u64Bytes timestamp).splitOn separator).tail ≠ [] :=
      fun none => tail_splitOn_eq_nil.mp none shifted
    have isSpelled := (rewriteAll_eq_self_iff some).mp
      (fields_ofValues.symm.trans (congrArg fields same))
    rw [survivor, ← isSpelled, same]
  · rintro ⟨clean, isSurvivor⟩
    rw [whole clean]
    by_cases shifted : separator ∈ u64Bytes timestamp
    · have some : ((u64Bytes timestamp).splitOn separator).tail ≠ [] :=
        fun none => tail_splitOn_eq_nil.mp none shifted
      have isSpelled : data.fields =
          spelled ((u64Bytes timestamp).splitOn separator).tail kinds := by
        rw [isSurvivor shifted]
        exact fields_ofValues.trans ((rewriteAll_eq_self_iff some).mpr rfl)
      rw [isSpelled]
      exact (isSurvivor shifted).symm
    · rw [tail_splitOn_eq_nil.mpr shifted, nil_append, ofValues_fields plain]

/-- A preview with nothing but the size of its image. -/
def sized (size : Number 8) : UrlPreviewData where
  title := none
  description := none
  image := none
  imageSize := some size
  imageWidth := none
  imageHeight := none
  video := none
  videoSize := none
  videoWidth := none
  videoHeight := none
  audio := none
  audioSize := none

theorem sized_lost : (sized 255).Plain ∧
    getUrlPreview (setUrlPreview empty "a" (sized 255) 0) "a" ≠
      some (sized 255) := by
  decide +kernel

theorem sized_kept_iff :
    getUrlPreview (setUrlPreview empty "a" (sized 254) 0) "a" =
        some (sized 254) ↔
      (∀ field ∈ (sized 254).fields, separator ∉ field) ∧
        (separator ∈ u64Bytes 0 → sized 254 = survivor 0) :=
  getUrlPreview_setUrlPreview_iff (by decide)

end ArcanaServer.Media
