import Mathlib.Data.Fin.Basic
import Mathlib.Data.List.Basic
import Mathlib.Algebra.Group.Nat.Defs
import Mathlib.Algebra.GroupWithZero.Nat

namespace ArcanaServer.Sending

open List Option

/-! The destinations of what the server sends, and the keys of the rows that
wait for them. -/

abbrev Byte := Fin 256

scoped instance byteNeZero : NeZero 256 := ⟨by decide⟩

abbrev Key := List Byte

def separator : Byte := 0xFF

/-- UTF-8 text: no byte of it is the separator. -/
structure Utf8 where
  bytes : List Byte
  noSeparator : separator ∉ bytes
  deriving DecidableEq

def Utf8.parse (bytes : List Byte) : Option Utf8 :=
  if noSeparator : separator ∉ bytes then some ⟨bytes, noSeparator⟩ else none

theorem utf8EncodeChar_lt (char : Char) :
    ∀ byte ∈ String.utf8EncodeChar char, byte.toFin ≠ separator := by
  have small : ∀ n, n < 255 → (UInt8.ofNat n).toFin ≠ separator := by
    intro n below same
    have equal : (UInt8.ofNat n).toNat = 255 := congrArg Fin.val same
    rw [UInt8.toNat_ofNat'] at equal
    omega
  unfold String.utf8EncodeChar
  simp only
  split
  · intro byte member
    rw [mem_singleton.mp member]
    exact small _ (by omega)
  · split
    · simp only [mem_cons, not_mem_nil, or_false]
      rintro byte (rfl | rfl) <;> exact small _ (by omega)
    · split
      · simp only [mem_cons, not_mem_nil, or_false]
        rintro byte (rfl | rfl | rfl) <;> exact small _ (by omega)
      · simp only [mem_cons, not_mem_nil, or_false]
        rintro byte (rfl | rfl | rfl | rfl) <;> exact small _ (by omega)

def Utf8.ofString (text : String) : Utf8 where
  bytes := (text.toList.flatMap String.utf8EncodeChar).map UInt8.toFin
  noSeparator := by
    intro member
    obtain ⟨byte, inside, same⟩ := List.mem_map.mp member
    obtain ⟨char, _, encoded⟩ := List.mem_flatMap.mp inside
    exact utf8EncodeChar_lt char byte encoded same

def appserviceSigil : Byte := 43

def pushSigil : Byte := 36

structure OwnedServerName where
  text : Utf8
  noSigil : text.bytes.head? ≠ some appserviceSigil ∧
    text.bytes.head? ≠ some pushSigil
  deriving DecidableEq

def otherServer : OwnedServerName where
  text := .ofString "b.h"
  noSigil := by decide +kernel

def OwnedServerName.parse (text : Utf8) : Option OwnedServerName :=
  if noSigil : text.bytes.head? ≠ some appserviceSigil ∧
      text.bytes.head? ≠ some pushSigil then
    some ⟨text, noSigil⟩
  else none

inductive Destination where
  | appservice (id : Utf8)
  | push (user pushkey : Utf8)
  | federation (server : OwnedServerName)
  deriving DecidableEq

def Destination.getPrefix : Destination → Key
  | .federation server => server.text.bytes ++ [separator]
  | .appservice server => appserviceSigil :: (server.bytes ++ [separator])
  | .push user pushkey =>
      pushSigil :: (user.bytes ++ separator :: (pushkey.bytes ++ [separator]))

/-- The key of a PDU: normal ones have 16 bytes, backfilled ones 24. -/
structure RawPduId where
  bytes : List Byte
  isLength : bytes.length = 16 ∨ bytes.length = 24
  deriving DecidableEq

def RawPduId.parse (bytes : List Byte) : Option RawPduId :=
  if isLength : bytes.length = 16 ∨ bytes.length = 24 then
    some ⟨bytes, isLength⟩
  else none

/-- The JSON of an EDU is never empty. -/
structure EduBuf where
  bytes : List Byte
  notEmpty : bytes ≠ []
  deriving DecidableEq

inductive SendingEvent where
  | pdu (id : RawPduId)
  | edu (buf : EduBuf)
  | flush
  deriving DecidableEq

def SendingEvent.value : SendingEvent → List Byte
  | .edu buf => buf.bytes
  | .pdu _ => []
  | .flush => []

def bigEndian : (length number : Nat) → List Byte
  | 0, _ => []
  | length + 1, number => bigEndian length (number / 256) ++
      [Fin.ofNat 256 number]

def toBeBytes (count : Nat) : List Byte := bigEndian 8 count

def splitOnce : List Byte → Option (List Byte × List Byte)
  | [] => none
  | byte :: rest =>
      if byte = separator then some ([], rest)
      else (splitOnce rest).map (fun parts => (byte :: parts.1, parts.2))

def parseEvent (event : List Byte) : List Byte → Option SendingEvent
  | [] => (RawPduId.parse event).map .pdu
  | byte :: value => some (.edu ⟨byte :: value, List.cons_ne_nil _ _⟩)

def parseServercurrentevent (key value : List Byte) :
    Option (Destination × SendingEvent) :=
  if key.head? = some appserviceSigil then do
    let (server, event) ← splitOnce key.tail
    let server ← Utf8.parse server
    let event ← parseEvent event value
    pure (.appservice server, event)
  else if key.head? = some pushSigil then do
    let (user, rest) ← splitOnce key.tail
    let user ← Utf8.parse user
    let (pushkey, event) ← splitOnce rest
    let pushkey ← Utf8.parse pushkey
    let event ← parseEvent event value
    pure (.push user pushkey, event)
  else do
    let (server, event) ← splitOnce key
    let server ← Utf8.parse server
    let server ← OwnedServerName.parse server
    let event ← parseEvent event value
    pure (.federation server, event)

theorem splitOnce_append (text : Utf8) (rest : List Byte) :
    splitOnce (text.bytes ++ separator :: rest) = some (text.bytes, rest) := by
  obtain ⟨bytes, noSeparator⟩ := text
  induction bytes with
  | nil => simp [splitOnce]
  | cons byte later ih =>
      rw [mem_cons, not_or] at noSeparator
      simp only [cons_append, splitOnce]
      rw [if_neg (Ne.symm noSeparator.1), ih noSeparator.2]
      rfl

theorem Utf8.parse_bytes (text : Utf8) : Utf8.parse text.bytes = some text :=
  dif_pos text.noSeparator

theorem OwnedServerName.parse_text (server : OwnedServerName) :
    OwnedServerName.parse server.text = some server :=
  dif_pos server.noSigil

theorem parseServercurrentevent_getPrefix (dest : Destination)
    (event value : List Byte) :
    parseServercurrentevent (dest.getPrefix ++ event) value =
      (parseEvent event value).map (fun found => (dest, found)) := by
  cases dest with
  | appservice id =>
      simp only [Destination.getPrefix, cons_append, append_assoc,
        nil_append, parseServercurrentevent, head?_cons, if_true,
        tail_cons, splitOnce_append, Utf8.parse_bytes,
        bind_eq_bind, bind_some]
      cases parseEvent event value <;> rfl
  | push user pushkey =>
      have notAppservice : ¬ some pushSigil = some appserviceSigil := by decide
      simp only [Destination.getPrefix, cons_append, append_assoc,
        nil_append, parseServercurrentevent, head?_cons,
        if_neg notAppservice, if_true, tail_cons, splitOnce_append,
        Utf8.parse_bytes, bind_eq_bind, bind_some]
      cases parseEvent event value <;> rfl
  | federation server =>
      have head : ∀ sigil, sigil ≠ separator →
          server.text.bytes.head? ≠ some sigil →
          (server.text.bytes ++ separator :: event).head? ≠ some sigil := by
        intro sigil differs noSigil
        cases bytes : server.text.bytes with
        | nil => simpa using Ne.symm differs
        | cons byte rest =>
            rw [bytes] at noSigil
            exact noSigil
      simp only [Destination.getPrefix, append_assoc,
        singleton_append, parseServercurrentevent]
      rw [if_neg (head _ (by decide) server.noSigil.1),
        if_neg (head _ (by decide) server.noSigil.2), splitOnce_append]
      simp only [bind_eq_bind, bind_some, Utf8.parse_bytes,
        OwnedServerName.parse_text]
      cases parseEvent event value <;> rfl

theorem splitOnce_eq_some {bytes before after : List Byte}
    (found : splitOnce bytes = some (before, after)) :
    bytes = before ++ separator :: after := by
  induction bytes generalizing before with
  | nil => cases found
  | cons byte rest ih =>
      unfold splitOnce at found
      split at found
      next isSeparator =>
        cases found
        rw [isSeparator, nil_append]
      · obtain ⟨parts, later, same⟩ := map_eq_some_iff.mp found
        cases same
        rw [ih later, cons_append]

theorem Utf8.bytes_of_parse {bytes : List Byte} {text : Utf8}
    (parsed : Utf8.parse bytes = some text) : text.bytes = bytes := by
  unfold Utf8.parse at parsed
  split at parsed
  · cases parsed
    rfl
  · cases parsed

theorem OwnedServerName.text_of_parse {text : Utf8} {server : OwnedServerName}
    (parsed : OwnedServerName.parse text = some server) :
    server.text = text := by
  unfold OwnedServerName.parse at parsed
  split at parsed
  · cases parsed
    rfl
  · cases parsed

theorem prefix_of_parse {key value : List Byte} {dest : Destination}
    {event : SendingEvent}
    (parsed : parseServercurrentevent key value = some (dest, event)) :
    dest.getPrefix <+: key := by
  unfold parseServercurrentevent at parsed
  split at parsed
  next sigil =>
    obtain ⟨rest, isKey⟩ := head?_eq_some_iff.mp sigil
    simp only [isKey, tail_cons, bind_eq_bind,
      bind_eq_some_iff, Prod.exists] at parsed
    obtain ⟨before, after, split_, server, isServer, found, _, same⟩ := parsed
    cases same
    rw [isKey, splitOnce_eq_some split_, ← Utf8.bytes_of_parse isServer]
    exact ⟨after, by simp [Destination.getPrefix]⟩
  · split at parsed
    next sigil =>
      obtain ⟨rest, isKey⟩ := head?_eq_some_iff.mp sigil
      simp only [isKey, tail_cons, bind_eq_bind,
        bind_eq_some_iff, Prod.exists] at parsed
      obtain ⟨before, after, first, user, isUser, middle, last, second,
        pushkey, isPushkey, found, _, same⟩ := parsed
      cases same
      rw [isKey, splitOnce_eq_some first, splitOnce_eq_some second,
        ← Utf8.bytes_of_parse isUser, ← Utf8.bytes_of_parse isPushkey]
      exact ⟨last, by simp [Destination.getPrefix]⟩
    · simp only [bind_eq_bind, bind_eq_some_iff,
        Prod.exists] at parsed
      obtain ⟨before, after, split_, text, isText, server, isServer, found, _,
        same⟩ := parsed
      cases same
      rw [splitOnce_eq_some split_, ← Utf8.bytes_of_parse isText,
        ← OwnedServerName.text_of_parse isServer]
      exact ⟨after, by simp [Destination.getPrefix]⟩

theorem getPrefix_append_inj {dest other : Destination}
    {event otherEvent : List Byte}
    (same : dest.getPrefix ++ event = other.getPrefix ++ otherEvent) :
    dest = other ∧ event = otherEvent := by
  have first := parseServercurrentevent_getPrefix dest event [0]
  have second := parseServercurrentevent_getPrefix other otherEvent [0]
  rw [same, second] at first
  obtain rfl : other = dest := by
    simpa [parseEvent] using first
  exact ⟨rfl, append_cancel_left same⟩

theorem getPrefix_prefix_iff {dest other : Destination} {event : List Byte} :
    dest.getPrefix <+: other.getPrefix ++ event ↔ dest = other := by
  constructor
  · rintro ⟨rest, same⟩
    exact (getPrefix_append_inj same).1
  · rintro rfl
    exact prefix_append _ _

theorem getPrefix_ne_nil (dest : Destination) : dest.getPrefix ≠ [] := by
  cases dest <;> simp [Destination.getPrefix]

theorem bigEndian_length (length number : Nat) :
    (bigEndian length number).length = length := by
  induction length generalizing number with
  | zero => rfl
  | succ length ih => simp [bigEndian, ih]

theorem bigEndian_inj {length first second : Nat}
    (firstBelow : first < 256 ^ length) (secondBelow : second < 256 ^ length)
    (same : bigEndian length first = bigEndian length second) :
    first = second := by
  induction length generalizing first second with
  | zero =>
      rw [Nat.pow_zero, Nat.lt_one_iff] at firstBelow secondBelow
      rw [firstBelow, secondBelow]
  | succ length ih =>
      rw [Nat.pow_succ] at firstBelow secondBelow
      obtain ⟨higher, lowest⟩ := append_inj' same rfl
      have quotients := ih (Nat.div_lt_of_lt_mul (by rwa [Nat.mul_comm]))
        (Nat.div_lt_of_lt_mul (by rwa [Nat.mul_comm])) higher
      have remainders : first % 256 = second % 256 :=
        congrArg Fin.val (head_eq_of_cons_eq lowest)
      omega

theorem toBeBytes_inj {first second : Nat} (firstBelow : first < 2 ^ 64)
    (secondBelow : second < 2 ^ 64)
    (same : toBeBytes first = toBeBytes second) : first = second :=
  @bigEndian_inj 8 first second (by simpa using firstBelow)
    (by simpa using secondBelow) same

theorem RawPduId.parse_bytes (id : RawPduId) :
    RawPduId.parse id.bytes = some id :=
  dif_pos id.isLength

end ArcanaServer.Sending
