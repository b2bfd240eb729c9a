import ArcanaServer.Library.Reader
import Mathlib.Data.Fin.Basic
import Mathlib.Data.Vector.Defs
import Mathlib.Data.List.Basic
import Mathlib.Algebra.GroupWithZero.Nat

namespace ArcanaServer.Resolver

open Library Reader Reader Nat
open List hiding Vector

/-! Internet addresses, as the standard library reads and writes them. -/

abbrev Text := List Char

abbrev Port := Fin 65536

scoped instance octetNeZero : NeZero 256 := ⟨by decide⟩

scoped instance portNeZero : NeZero 65536 := ⟨by decide⟩

scoped instance scopeNeZero : NeZero 4294967296 := ⟨by decide⟩

structure Ipv4Addr where
  one : Fin 256
  two : Fin 256
  three : Fin 256
  four : Fin 256
  deriving DecidableEq, Repr

structure Ipv6Addr where
  segments : Vector (Fin 65536) 8
  deriving DecidableEq, Repr

inductive IpAddr where
  | v4 (addr : Ipv4Addr)
  | v6 (addr : Ipv6Addr)
  deriving DecidableEq, Repr

inductive SocketAddr where
  | v4 (ip : Ipv4Addr) (port : Port)
  | v6 (ip : Ipv6Addr) (scopeId : Fin 4294967296) (port : Port)
  deriving DecidableEq, Repr

namespace SocketAddr

def new : IpAddr → Port → SocketAddr
  | .v4 ip, port => .v4 ip port
  | .v6 ip, port => .v6 ip 0 port

def ip : SocketAddr → IpAddr
  | .v4 ip _ => .v4 ip
  | .v6 ip _ _ => .v6 ip

def port : SocketAddr → Port
  | .v4 _ port => port
  | .v6 _ _ port => port

end SocketAddr

def toDigit (radix : Nat) (char : Char) : Option Nat :=
  let value :=
    if '0' ≤ char ∧ char ≤ '9' then some (char.toNat - '0'.toNat)
    else if 'a' ≤ char ∧ char ≤ 'z' then some (char.toNat - 'a'.toNat + 10)
    else if 'A' ≤ char ∧ char ≤ 'Z' then some (char.toNat - 'A'.toNat + 10)
    else none
  value.filter (fun digit => digit < radix)

def isDigit (radix : Nat) (char : Char) : Bool := (toDigit radix char).isSome

def digitsValue (radix : Nat) (digits : Text) : Nat := digits.foldl
    (fun value char => value * radix + (toDigit radix char).getD 0) 0

def readNumber (bound radix : Nat) (maxDigits : Option Nat)
    (allowZeroPrefix : Bool) : Reader (Fin bound) := do
  let digits ← stretch (isDigit radix)
  if maxDigits.any (fun most => most < digits.length) then failure
  else if digits.isEmpty then failure
  else if !allowZeroPrefix && digits.head? == some '0' &&
      1 < digits.length then failure
  else if fits : digitsValue radix digits < bound then
    pure ⟨digitsValue radix digits, fits⟩
  else failure

/-- `parse::<u16>`, which takes a plus sign too. -/
def parseU16 (text : Text) : Option Port :=
  match text with
  | '+' :: digits => (readNumber 65536 10 none true).whole digits
  | digits => (readNumber 65536 10 none true).whole digits

def readOctet : Reader (Fin 256) := readNumber 256 10 (some 3) false

def readIpv4Addr : Reader Ipv4Addr := do
  let one ← readOctet
  given '.'
  let two ← readOctet
  given '.'
  let three ← readOctet
  given '.'
  let four ← readOctet
  pure { one, two, three, four }

def readSeparator {α : Type} (index : Nat) (inner : Reader α) : Reader α :=
  if 0 < index then do
    given ':'
    inner
  else inner

def readGroup : Reader (Fin 65536) := readNumber 65536 16 (some 4) true

def fromBeBytes (high low : Fin 256) : Fin 65536 := ⟨high * 256 + low, by omega⟩

def Ipv4Addr.groups (addr : Ipv4Addr) : List (Fin 65536) :=
  [fromBeBytes addr.one addr.two, fromBeBytes addr.three addr.four]

/-- The groups from `index` on, of which there may be `left`, and whether they
end with an embedded IPv4 address. -/
def readGroups (index : Nat) : Nat → Reader (List (Fin 65536) × Bool)
  | 0 => pure ([], false)
  | left + 1 =>
      (if 0 < left then do
        let embedded ← readSeparator index readIpv4Addr
        pure (embedded.groups, true)
      else failure) <|>
      (do
        let group ← readSeparator index readGroup
        let later ← readGroups (index + 1) left
        pure (group :: later.1, later.2)) <|>
      pure ([], false)

def Ipv6Addr.ofGroups (groups : List (Fin 65536)) : Ipv6Addr where
  segments := Vector.ofFn (fun index => groups.getD index 0)

def readIpv6Addr : Reader Ipv6Addr := do
  let (head, embedded) ← readGroups 0 8
  if head.length = 8 then pure (.ofGroups head)
  else if embedded then failure
  else do
    given ':'
    given ':'
    let (tail, _) ← readGroups 0 (8 - (head.length + 1))
    pure (.ofGroups (head ++
      List.replicate (8 - head.length - tail.length) 0 ++ tail))

def readIpAddr : Reader IpAddr :=
  (do pure (.v4 (← readIpv4Addr))) <|> (do pure (.v6 (← readIpv6Addr)))

def readPort : Reader Port := do
  given ':'
  readNumber 65536 10 none true

def readScopeId : Reader (Fin 4294967296) := do
  given '%'
  readNumber 4294967296 10 none true

def readSocketAddrV4 : Reader SocketAddr := do
  let ip ← readIpv4Addr
  let port ← readPort
  pure (.v4 ip port)

def readSocketAddrV6 : Reader SocketAddr := do
  given '['
  let ip ← readIpv6Addr
  let scopeId ← readScopeId <|> pure 0
  given ']'
  let port ← readPort
  pure (.v6 ip scopeId port)

def parseIpAddr (text : Text) : Option IpAddr := readIpAddr.whole text

def parseSocketAddr (text : Text) : Option SocketAddr :=
  whole (readSocketAddrV4 <|> readSocketAddrV6) text

def decimal (number : Nat) : Text := toDigits 10 number

def hexadecimal (number : Nat) : Text := toDigits 16 number

def Ipv4Addr.toText (addr : Ipv4Addr) : Text :=
  decimal addr.one ++ '.' :: decimal addr.two ++ '.' ::
    decimal addr.three ++ '.' :: decimal addr.four

structure Span where
  start : Nat
  length : Nat
  deriving DecidableEq

/-- The longest run of zeros, the first one if several are as long. -/
def zeroes (segments : List (Fin 65536)) : Span :=
  (segments.zipIdx.foldl (fun (longest, current) (segment, index) =>
    if segment = 0 then
      let current : Span :=
        { start := if current.length = 0 then index else current.start
          length := current.length + 1 }
      (if longest.length < current.length then current else longest, current)
    else (longest, ⟨0, 0⟩)) ((⟨0, 0⟩ : Span), (⟨0, 0⟩ : Span))).1

def fmtSubslice (segments : List (Fin 65536)) : Text :=
  [':'].intercalate (segments.map
    (fun segment : Fin 65536 => hexadecimal segment))

def Ipv6Addr.toIpv4Mapped (addr : Ipv6Addr) : Option Ipv4Addr :=
  match addr.segments.toList with
  | [0, 0, 0, 0, 0, 65535, high, low] => some {
      one := ⟨high / 256, by omega⟩
      two := ⟨high % 256, by omega⟩
      three := ⟨low / 256, by omega⟩
      four := ⟨low % 256, by omega⟩ }
  | _ => none

def Ipv6Addr.toText (addr : Ipv6Addr) : Text :=
  match addr.toIpv4Mapped with
  | some mapped => "::ffff:".toList ++ mapped.toText
  | none =>
      let segments := addr.segments.toList
      let span := zeroes segments
      if 1 < span.length then
        fmtSubslice (segments.take span.start) ++ "::".toList ++
          fmtSubslice (segments.drop (span.start + span.length))
      else fmtSubslice segments

def IpAddr.toText : IpAddr → Text
  | .v4 addr => addr.toText
  | .v6 addr => addr.toText

def SocketAddr.toText : SocketAddr → Text
  | .v4 ip port => ip.toText ++ ':' :: decimal port
  | .v6 ip scopeId port =>
      if scopeId = 0 then
        '[' :: ip.toText ++ "]:".toList ++ decimal port
      else
        '[' :: ip.toText ++ '%' :: decimal scopeId ++ "]:".toList ++
          decimal port

section

variable {bound radix : Nat} {maxDigits : Option Nat} {allowZeroPrefix : Bool}
  {stop : Char}

theorem readNumber_stopsAt (notDigit : isDigit radix stop = false) :
    (readNumber bound radix maxDigits allowZeroPrefix).StopsAt stop := by
  apply Reader.StopsAt.bind (.stretch notDigit)
  intro digits
  split_ifs with _ _ _ fits
  · exact .failure
  · exact .failure
  · exact .failure
  · exact .pure _
  · exact .failure

theorem readNumber_takes :
    (readNumber bound radix maxDigits allowZeroPrefix).TakesAtLeast ':'
      (fun _ => 0) := by
  apply Reader.TakesAtLeast.bind (.stretch _)
  intro digits
  split_ifs with _ _ _ fits
  · exact .failure
  · exact .failure
  · exact .failure
  · exact .pure rfl
  · exact .failure

theorem toDigit_of_isDigit {char : Char} (digit : char.isDigit = true) :
    toDigit 10 char = some (char.toNat - '0'.toNat) := by
  have range : '0' ≤ char ∧ char ≤ '9' := by
    simpa [Char.isDigit, Char.le_def] using digit
  have upper : char.toNat ≤ '9'.toNat := range.2
  have small : char.toNat - 48 < 10 := by
    have nine : '9'.toNat = 57 := rfl
    omega
  simp [toDigit, range, small]

theorem isDigit_decimal {number : Nat} {char : Char}
    (member : char ∈ decimal number) : char.isDigit = true :=
  isDigit_of_mem_toDigits (by decide) (by decide) member

theorem digitsValue_decimal (number : Nat) :
    digitsValue 10 (decimal number) = number := by
  have folds : digitsValue 10 (decimal number) =
      ofDigitChars 10 (decimal number) 0 := by
    rw [digitsValue, ofDigitChars_eq_foldl]
    apply foldl_ext
    intro value char member
    rw [toDigit_of_isDigit (isDigit_decimal member), Option.getD_some,
      mul_comm]
  rw [folds]
  exact ofDigitChars_ten_toDigits

theorem parseU16_unsigned {text : Text} (unsigned : text.head? ≠ some '+') :
    parseU16 text = (readNumber 65536 10 none true).whole text := by
  unfold parseU16
  split
  · simp at unsigned
  · rfl

theorem parseU16_decimal (port : Port) : parseU16 (decimal port) = some port := by
  have digits : ∀ char ∈ decimal port, isDigit 10 char = true := by
    intro char member
    rw [isDigit, toDigit_of_isDigit (isDigit_decimal member)]
    rfl
  have nonempty : decimal port ≠ [] := toDigits_ne_nil
  have unsigned : (decimal port).head? ≠ some '+' := by
    intro first
    have digit := digits '+' (mem_of_head? first)
    revert digit
    decide
  have taken : (stretch (isDigit 10)).run (decimal port) =
      some (decimal port, []) := by
    have all := takeWhile_eq_self_iff.mpr digits
    have nothing := dropWhile_eq_nil_iff.mpr digits
    simp only [stretch, StateT.run, all, nothing]
  rw [parseU16_unsigned unsigned, whole_eq_some, readNumber, run_bind, taken]
  simp [nonempty, digitsValue_decimal]

theorem readIpv4Addr_stopsAt (notDot : stop ≠ '.')
    (notDigit : isDigit 10 stop = false) :
    readIpv4Addr.StopsAt stop := by
  have octet : readOctet.StopsAt stop := readNumber_stopsAt notDigit
  have dot : (given '.').StopsAt stop := .given notDot
  apply octet.bind
  intro one
  apply dot.bind
  intro _
  apply octet.bind
  intro two
  apply dot.bind
  intro _
  apply octet.bind
  intro three
  apply dot.bind
  intro _
  apply octet.bind
  intro four
  exact .pure _

theorem readIpv4Addr_toText (addr : Ipv4Addr) :
    readIpv4Addr.whole addr.toText = some addr := by
  have whole : ∀ octet : Fin 256,
      readOctet.whole (decimal octet) = some octet := by
    decide +kernel
  have stops : readOctet.StopsAt '.' := readNumber_stopsAt (by decide)
  have front (octet : Fin 256) (rest : Text) :
      readOctet.run (decimal octet ++ '.' :: rest) =
        some (octet, '.' :: rest) := stops.run_whole rest (whole octet)
  have dot (rest : Text) : (given '.').run ('.' :: rest) =
      some ((), rest) := run_given.mpr rfl
  have last := whole_eq_some.mp (whole addr.four)
  simp only [whole_eq_some, readIpv4Addr, Ipv4Addr.toText,
    append_assoc, cons_append, run_bind, front, dot, last,
    Option.bind_some, run_pure]

theorem readIpv4Addr_takes : readIpv4Addr.TakesAtLeast ':' (fun _ => 0) := by
  have octet : readOctet.TakesAtLeast ':' (fun _ => 0) := readNumber_takes
  have dot : (given '.').TakesAtLeast ':' (fun _ => 0) := .given_other
  apply octet.bind
  intro one
  apply dot.bind
  intro _
  apply octet.bind
  intro two
  apply dot.bind
  intro _
  apply octet.bind
  intro three
  apply dot.bind
  intro _
  apply octet.bind
  intro four
  exact .pure rfl

section

variable {α : Type} {inner : Reader α} {index : Nat}

theorem readSeparator_stopsAt (notColon : stop ≠ ':')
    (stops : inner.StopsAt stop) :
    (readSeparator index inner).StopsAt stop := by
  unfold readSeparator
  split
  · exact .bind (.given notColon) (fun _ => stops)
  · exact stops

theorem readSeparator_takes (takes : inner.TakesAtLeast ':' (fun _ => 0)) :
    (readSeparator index inner).TakesAtLeast ':'
      (fun _ => if 0 < index then 1 else 0) := by
  unfold readSeparator
  split
  · exact .bind .given (fun _ => takes)
  · exact takes

end

theorem readGroups_stopsAt (notDot : stop ≠ '.') (notColon : stop ≠ ':')
    (notDigit : isDigit 10 stop = false)
    (notHexadecimal : isDigit 16 stop = false) (left : Nat) :
    ∀ index, (readGroups index left).StopsAt stop := by
  induction left with
  | zero => exact fun _ => .pure _
  | succ left ih =>
      intro index
      apply Reader.StopsAt.orElse
      · apply Reader.StopsAt.ite
        · intro _
          exact .bind (readSeparator_stopsAt notColon
            (readIpv4Addr_stopsAt notDot notDigit)) (fun _ => .pure _)
        · exact fun _ => .failure
      · apply Reader.StopsAt.orElse
        · apply Reader.StopsAt.bind
            (readSeparator_stopsAt notColon (readNumber_stopsAt notHexadecimal))
          intro group
          exact (ih (index + 1)).bind (fun _ => .pure _)
        · exact .pure _

/-- There is a colon between two groups.  An embedded address makes two of
them without one. -/
theorem readGroups_takes (left : Nat) :
    ∀ index, (readGroups index left).TakesAtLeast ':' (fun read =>
      read.1.length - (if 0 < index then 0 else 1) -
        (if read.2 then 1 else 0)) := by
  induction left with
  | zero =>
      intro index
      apply Reader.TakesAtLeast.pure
      simp
  | succ left ih =>
      intro index
      apply Reader.TakesAtLeast.orElse
      · apply Reader.TakesAtLeast.ite
        · intro _
          apply Reader.TakesAtLeast.bind
            (readSeparator_takes readIpv4Addr_takes)
          intro embedded
          apply Reader.TakesAtLeast.pure
          simp only [Ipv4Addr.groups, length_cons, length_nil, if_true]
          split <;> rfl
        · exact fun _ => .failure
      · apply Reader.TakesAtLeast.orElse
        · apply Reader.TakesAtLeast.bind (readSeparator_takes readNumber_takes)
          intro group
          apply (ih (index + 1)).bind
          intro later
          apply Reader.TakesAtLeast.pure
          simp only [length_cons, zero_lt_succ, if_true]
          split <;> split <;> omega
        · apply Reader.TakesAtLeast.pure
          simp

theorem readIpv6Addr_stopsAt (notDot : stop ≠ '.') (notColon : stop ≠ ':')
    (notDigit : isDigit 10 stop = false)
    (notHexadecimal : isDigit 16 stop = false) :
    readIpv6Addr.StopsAt stop := by
  have groups := readGroups_stopsAt notDot notColon notDigit notHexadecimal
  apply (groups 8 0).bind
  intro (head, embedded)
  apply Reader.StopsAt.ite
  · exact fun _ => .pure _
  · intro _
    apply Reader.StopsAt.ite
    · exact fun _ => .failure
    · intro _
      apply Reader.StopsAt.bind (.given notColon)
      intro _
      apply Reader.StopsAt.bind (.given notColon)
      intro _
      apply (groups _ 0).bind
      intro (tail, _)
      exact .pure _

theorem readIpv6Addr_takes : readIpv6Addr.TakesAtLeast ':' (fun _ => 2) := by
  apply (readGroups_takes 8 0).bind
  intro (head, embedded)
  apply Reader.TakesAtLeast.ite
  · intro complete
    apply Reader.TakesAtLeast.pure
    cases embedded with
    | false | true => simp [complete]
  · intro _
    apply Reader.TakesAtLeast.ite
    · exact fun _ => .failure
    · intro _
      have colons : Reader.TakesAtLeast ':' (fun _ => 2) (do
          given ':'
          given ':'
          let (tail, _) ← readGroups 0 (8 - (head.length + 1))
          pure (Ipv6Addr.ofGroups (head ++
            replicate (8 - head.length - tail.length) 0 ++ tail))) := by
        apply Reader.TakesAtLeast.bind .given
        intro _
        apply Reader.TakesAtLeast.bind .given
        intro _
        have groups : (readGroups 0 (8 - (head.length + 1))).TakesAtLeast ':'
            (fun _ => 0) := (readGroups_takes _ 0).mono (fun _ => zero_le _)
        apply groups.bind
        intro (tail, _)
        exact .pure rfl
      exact colons.mono (fun _ => sub_le _ _)

end

end ArcanaServer.Resolver
