import Mathlib.Data.List.TakeWhile
import Mathlib.Data.Nat.Notation
import Mathlib.Order.Basic
import Mathlib.Tactic.Push

namespace ArcanaServer.Library.JsonText

open List

/-- A quotation mark, a backslash and the controls are escaped. -/
def escapeChar (char : Char) : List Char :=
  if char = '"' then ['\\', '"']
  else if char = '\\' then ['\\', '\\']
  else if char = '\n' then ['\\', 'n']
  else if char = '\r' then ['\\', 'r']
  else if char = '\t' then ['\\', 't']
  else if char.toNat = 8 then ['\\', 'b']
  else if char.toNat = 12 then ['\\', 'f']
  else if char.toNat < 32 then
    ['\\', 'u', '0', '0', Nat.digitChar (char.toNat / 16),
      Nat.digitChar (char.toNat % 16)]
  else [char]

variable (text : List Char)

def escaped : List Char := text.flatMap escapeChar

def quoted : List Char := '"' :: (escaped text ++ ['"'])

def hexValue (digit : Char) : Option ℕ :=
  (List.range 16).find? fun value => Nat.digitChar value = digit.toLower

def unescapeChar (kind : Char) : Option Char :=
  if kind = '"' ∨ kind = '\\' ∨ kind = '/' then some kind
  else if kind = 'n' then some '\n'
  else if kind = 'r' then some '\r'
  else if kind = 't' then some '\t'
  else if kind = 'b' then some (Char.ofNat 8)
  else if kind = 'f' then some (Char.ofNat 12)
  else none

/-- Surrogates are not read, as they are not written. -/
def readHex (first second third fourth : Char) : Option Char := do
  let a ← hexValue first
  let b ← hexValue second
  let c ← hexValue third
  let d ← hexValue fourth
  let code := ((a * 16 + b) * 16 + c) * 16 + d
  if code.isValidChar then some (Char.ofNat code) else none

def unescaped : List Char → Option (List Char)
  | [] => some []
  | '\\' :: 'u' :: first :: second :: third :: fourth :: rest => do
      let char ← readHex first second third fourth
      return char :: (← unescaped rest)
  | '\\' :: kind :: rest => do
      let char ← unescapeChar kind
      return char :: (← unescaped rest)
  | char :: rest =>
      if char = '"' ∨ char = '\\' ∨ char.toNat < 32 then none
      else (char :: ·) <$> unescaped rest

def unquoted : List Char → Option (List Char)
  | [] => none
  | first :: rest =>
      if first = '"' ∧ rest.getLast? = some '"' then unescaped rest.dropLast
      else none

theorem escaped_cons (char : Char) (text : List Char) :
    escaped (char :: text) = escapeChar char ++ escaped text :=
  flatMap_cons

theorem escaped_append (text more : List Char) :
    escaped (text ++ more) = escaped text ++ escaped more :=
  flatMap_append

theorem readHex_control : ∀ code : Fin 32,
    readHex '0' '0' (Nat.digitChar (code / 16)) (Nat.digitChar (code % 16)) =
      some (Char.ofNat code) := by
  decide

theorem eq_ofNat {char : Char} {code : ℕ} (same : char.toNat = code) :
    char = Char.ofNat code := by
  rw [← same, Char.ofNat_toNat]

theorem unescaped_backslash {kind char : Char} (named : kind ≠ 'u')
    (reads : unescapeChar kind = some char) (rest : List Char) :
    unescaped ('\\' :: kind :: rest) = (unescaped rest).map (char :: ·) := by
  rw [unescaped, reads]
  · cases unescaped rest with
    | none | some text => rfl
  · exact fun _ _ _ _ _ same => absurd same named

theorem unescaped_escapeChar (char : Char) (rest : List Char) :
    unescaped (escapeChar char ++ rest) = (unescaped rest).map (char :: ·) := by
  unfold escapeChar
  split
  next same =>
    rw [same]
    exact unescaped_backslash (by decide) rfl rest
  split
  next same =>
    rw [same]
    exact unescaped_backslash (by decide) rfl rest
  split
  next same => exact same ▸ unescaped_backslash (by decide) rfl rest
  split
  next same => exact same ▸ unescaped_backslash (by decide) rfl rest
  split
  next same => exact same ▸ unescaped_backslash (by decide) rfl rest
  split
  next code =>
    exact eq_ofNat code ▸ unescaped_backslash (by decide) rfl rest
  split
  next code =>
    exact eq_ofNat code ▸ unescaped_backslash (by decide) rfl rest
  next notQuote notBackslash _ _ _ _ _ =>
    split
    next control =>
      have read := readHex_control ⟨char.toNat, control⟩
      rw [Char.ofNat_toNat] at read
      simp only [cons_append, nil_append, unescaped, read]
      cases unescaped rest with
      | none | some text => rfl
    next printed =>
      rw [cons_append, nil_append, unescaped]
      · rw [if_neg (by simp [notQuote, notBackslash, printed])]
        rfl
      · exact fun _ _ _ _ _ same => absurd same notBackslash
      · exact fun _ _ same => absurd same notBackslash

theorem unescaped_escaped : unescaped (escaped text) = some text := by
  induction text with
  | nil => rfl
  | cons char rest ih =>
      rw [escaped_cons, unescaped_escapeChar, ih]
      rfl

theorem unquoted_quoted : unquoted (quoted text) = some text := by
  unfold quoted
  rw [unquoted, if_pos ⟨rfl, getLast?_concat⟩, dropLast_concat]
  exact unescaped_escaped text

theorem escapeChar_eq_or (char : Char) : escapeChar char = [char] ∨
      ∃ kind rest, escapeChar char = '\\' :: kind :: rest := by
  unfold escapeChar
  repeat' split
  all_goals first
    | exact .inl rfl
    | exact .inr ⟨_, _, rfl⟩

theorem colon_mem_escapeChar {char : Char} :
    ':' ∈ escapeChar char ↔ char = ':' := by
  constructor
  · unfold escapeChar
    repeat' split
    all_goals intro member
    all_goals simp at member
    exact member.symm
  · intro same
    rw [same]
    decide

variable {text : List Char}

theorem colon_mem_escaped : ':' ∈ escaped text ↔ ':' ∈ text := by
  unfold escaped
  rw [mem_flatMap]
  constructor
  · intro escapedColon
    obtain ⟨char, member, inside⟩ := escapedColon
    exact colon_mem_escapeChar.mp inside ▸ member
  · intro member
    exact ⟨':', member, colon_mem_escapeChar.mpr rfl⟩

theorem one_le_length_escapeChar (char : Char) :
    1 ≤ (escapeChar char).length := by
  rcases escapeChar_eq_or char with plain | ⟨kind, rest, behind⟩
  · rw [plain]
    exact le_rfl
  · rw [behind]
    exact Nat.succ_pos _

theorem length_le_escaped (text : List Char) :
    text.length ≤ (escaped text).length := by
  induction text with
  | nil => exact le_rfl
  | cons char rest ih =>
      have longer := one_le_length_escapeChar char
      rw [escaped_cons, length_append, length_cons]
      omega

theorem length_lt_escaped {char : Char} (member : char ∈ text)
    (changes : escapeChar char ≠ [char]) :
    text.length < (escaped text).length := by
  induction text with
  | nil => cases member
  | cons first rest ih =>
      rw [escaped_cons, length_append, length_cons]
      rcases mem_cons.mp member with here | later
      · rw [here] at changes
        obtain ⟨kind, more, behind⟩ :=
          (escapeChar_eq_or first).resolve_left changes
        have later := length_le_escaped rest
        rw [behind, length_cons, length_cons]
        omega
      · have shorter := ih later
        have longer := one_le_length_escapeChar first
        omega

/-- Texts that need no escapes are those of plain characters. -/
theorem escaped_eq_self_iff :
    escaped text = text ↔ ∀ char ∈ text, escapeChar char = [char] := by
  constructor
  · intro same char member
    by_contra changes
    have longer := length_lt_escaped member changes
    rw [same] at longer
    exact lt_irrefl _ longer
  · intro plain
    induction text with
    | nil => rfl
    | cons char rest ih =>
        rw [escaped_cons, plain char mem_cons_self,
          ih (fun other member => plain other (mem_cons_of_mem char member))]
        rfl

theorem escaped_escaped_ne (changes : escaped text ≠ text) :
    escaped (escaped text) ≠ escaped text ∧
      text.length < (escaped text).length := by
  rw [Ne, escaped_eq_self_iff] at changes
  push Not at changes
  obtain ⟨char, member, changed⟩ := changes
  obtain ⟨kind, more, behind⟩ := (escapeChar_eq_or char).resolve_left changed
  have backslash : '\\' ∈ escaped text := by
    refine mem_flatMap.mpr ⟨char, member, ?_⟩
    rw [behind]
    exact mem_cons_self
  refine ⟨?_, length_lt_escaped member changed⟩
  intro same
  exact absurd (escaped_eq_self_iff.mp same _ backslash) (by decide)

end ArcanaServer.Library.JsonText
