import ArcanaServer.Resolver.Fed

namespace ArcanaServer.Resolver

open Library Reader List Option

/-! The grammar of server names, and how the parsers of addresses read it. -/

def isHostnameChar (char : Char) : Bool :=
  char.isAlphanum || char = '-' || char = '.'

inductive Host where
  | ipv4 (text : Text) (addr : Ipv4Addr)
      (reads : readIpv4Addr.whole text = some addr)
  | ipv6 (text : Text) (addr : Ipv6Addr)
      (reads : readIpv6Addr.whole text = some addr)
  | hostname (text : Text) (nonempty : text ≠ [])
      (chars : ∀ char ∈ text, isHostnameChar char = true)
      (noAddress : readIpv4Addr.whole text = none)

namespace Host

def text : Host → Text
  | .ipv4 text _ _ => text
  | .ipv6 text _ _ => '[' :: text ++ [']']
  | .hostname text _ _ _ => text

def address : Host → Option IpAddr
  | .ipv4 _ addr _ => some (.v4 addr)
  | .ipv6 _ addr _ => some (.v6 addr)
  | .hostname _ _ _ _ => none

def isIpv6 : Host → Bool
  | .ipv4 _ _ _ => false
  | .ipv6 _ _ _ => true
  | .hostname _ _ _ _ => false

def isHostname : Host → Bool
  | .ipv4 _ _ _ => false
  | .ipv6 _ _ _ => false
  | .hostname _ _ _ _ => true

end Host

/-- The digits of a port.  A plus sign is no part of the grammar, but what
validates the names takes it. -/
structure PortText where
  text : Text
  number : Port
  reads : parseU16 text = some number

def PortText.signed (port : PortText) : Bool := port.text.head? == some '+'

structure Name where
  host : Host
  port : Option PortText

namespace Name

def portSuffix : Option PortText → Text
  | none => []
  | some port => ':' :: port.text

def text (name : Name) : Text := name.host.text ++ portSuffix name.port

end Name

section

variable {port : PortText} {host : Text}

theorem noColon_of_parseU16 {text : Text} {number : Port}
    (reads : parseU16 text = some number) : ':' ∉ text := by
  have stops : (readNumber 65536 10 none true).StopsAt ':' :=
    readNumber_stopsAt (by decide)
  unfold parseU16 at reads
  split at reads
  next digits =>
    intro member
    rcases mem_cons.mp member with same | inside
    · cases same
    · exact stops.not_mem reads inside
  · exact stops.not_mem reads

theorem run_readPort (text : Text) : readPort.run (':' :: text) =
      (readNumber 65536 10 none true).run text :=
  rfl

theorem readPort_unsigned (unsigned : port.signed = false) :
    readPort.run (':' :: port.text) = some (port.number, []) := by
  have reads := port.reads
  rw [parseU16_unsigned (by simpa [PortText.signed] using unsigned)] at reads
  rw [run_readPort]
  exact whole_eq_some.mp reads

theorem readPort_signed (signed : port.signed = true) :
    readPort.run (':' :: port.text) = none := by
  have first : port.text.head? = some '+' := by
    simpa [PortText.signed] using signed
  obtain ⟨digits, text⟩ := head?_eq_some_iff.mp first
  have stops : (readNumber 65536 10 none true).StopsAt '+' :=
    readNumber_stopsAt (by decide)
  rw [run_readPort, text]
  exact stops.run_stop rfl

end

section

variable {text rest : Text}

theorem readIpv4Addr_colon : readIpv4Addr.StopsAt ':' :=
  readIpv4Addr_stopsAt (by decide) (by decide)

theorem readIpv4Addr_bracket : readIpv4Addr.run ('[' :: text) = none :=
  (readIpv4Addr_stopsAt (by decide) (by decide)).run_stop rfl

theorem readIpv6Addr_bracket : readIpv6Addr.run ('[' :: text) = none :=
  (readIpv6Addr_stopsAt (by decide) (by decide) (by decide)
    (by decide)).run_stop rfl

theorem readSocketAddrV4_eq_none
    (noPort : ∀ addr rest, readIpv4Addr.run text = some (addr, rest) →
      readPort.run rest = none) :
    readSocketAddrV4.run text = none := by
  rw [readSocketAddrV4, run_bind]
  cases front : readIpv4Addr.run text with
  | none => rfl
  | some pair =>
      have port := noPort pair.1 pair.2 front
      rw [bind_some, run_bind, port]
      rfl

theorem readSocketAddrV6_unbracketed (first : text.head? ≠ some '[') :
    readSocketAddrV6.run text = none := by
  cases text with
  | nil => rfl
  | cons char rest =>
      have differs : char ≠ '[' := by simpa using first
      have failed : (Reader.given '[').run (char :: rest) = none := by
        simp [Reader.given, StateT.run, differs]
      rw [readSocketAddrV6, run_bind, failed]
      rfl

theorem readSocketAddrV6_bracketed (rest : Text) {addr : Ipv6Addr}
    (reads : readIpv6Addr.whole text = some addr) :
    readSocketAddrV6.run ('[' :: (text ++ ']' :: rest)) =
      (readPort.run rest).map (fun read => (.v6 addr 0 read.1, read.2)) := by
  have stops : readIpv6Addr.StopsAt ']' :=
    readIpv6Addr_stopsAt (by decide) (by decide) (by decide) (by decide)
  have front := stops.run_whole rest reads
  have opened : (Reader.given '[').run ('[' :: (text ++ ']' :: rest)) =
      some ((), text ++ ']' :: rest) := run_given.mpr rfl
  have noScope : (readScopeId <|> pure 0 : Reader _).run (']' :: rest) =
      some (0, ']' :: rest) := rfl
  have closed : (Reader.given ']').run (']' :: rest) = some ((), rest) :=
    run_given.mpr rfl
  rw [readSocketAddrV6, run_bind, opened, bind_some,
    run_bind, front, bind_some, run_bind, noScope,
    bind_some, run_bind, closed, bind_some,
    run_bind]
  cases readPort.run rest <;> rfl

theorem parseIpAddr_ipv4 {addr : Ipv4Addr}
    (reads : readIpv4Addr.whole text = some addr) :
    parseIpAddr text = some (.v4 addr) := by
  have front := whole_eq_some.mp reads
  rw [parseIpAddr, whole_eq_some, readIpAddr, run_orElse, run_bind, front]
  rfl

theorem parseIpAddr_bracket : parseIpAddr ('[' :: text) = none := by
  rw [parseIpAddr, whole, readIpAddr, run_orElse,
    run_bind, run_bind, readIpv4Addr_bracket,
    readIpv6Addr_bracket]
  rfl

theorem parseIpAddr_eq_none (few : text.count ':' < 2)
    (noAddress : readIpv4Addr.whole text = none) :
    parseIpAddr text = none := by
  cases front : readIpv4Addr.run text with
  | some pair =>
      obtain ⟨addr, rest⟩ := pair
      cases rest with
      | nil =>
          rw [whole_eq_some.mpr front] at noAddress
          cases noAddress
      | cons char rest =>
          rw [parseIpAddr, whole, readIpAddr, run_orElse, run_bind, front]
          rfl
  | none =>
      have noIpv6 : readIpv6Addr.run text = none := by
        cases read : readIpv6Addr.run text with
        | none => rfl
        | some pair =>
            have colons : 2 + pair.2.count ':' ≤ text.count ':' :=
              readIpv6Addr_takes _ _ _ read
            omega
      rw [parseIpAddr, whole, readIpAddr, run_orElse,
        run_bind, run_bind, front, noIpv6]
      rfl

theorem getIpWithPort_socket {addr : SocketAddr}
    (reads : parseSocketAddr text = some addr) :
    getIpWithPort text = some (.literal addr) := by
  rw [getIpWithPort, reads]

theorem getIpWithPort_address (noSocket : parseSocketAddr text = none) :
    getIpWithPort text =
      (parseIpAddr text).map (fun addr => .literal (.new addr 8448)) := by
  rw [getIpWithPort, noSocket]
  cases parseIpAddr text <;> rfl

theorem parseSocketAddr_eq_none (noIpv4 : readSocketAddrV4.run text = none)
    (noIpv6 : readSocketAddrV6.run text = none) :
    parseSocketAddr text = none := by
  rw [parseSocketAddr, whole, run_orElse, noIpv4, noIpv6]
  rfl

end

namespace Host

theorem address_hostname {host : Host} (hostname : host.isHostname = true) :
    host.address = none := by
  cases host with
  | ipv4 text addr reads | ipv6 text addr reads => cases hostname
  | hostname text nonempty chars noAddress => rfl

theorem ipv4_noColon {text : Text} {addr : Ipv4Addr}
    (reads : readIpv4Addr.whole text = some addr) : ':' ∉ text :=
  readIpv4Addr_colon.not_mem reads

theorem hostname_noChar {text : Text} {char : Char}
    (chars : ∀ char ∈ text, isHostnameChar char = true)
    (other : isHostnameChar char = false) : char ∉ text := by
  intro member
  rw [chars char member] at other
  cases other

theorem noColon {host : Host} (plain : host.isIpv6 = false) :
    ':' ∉ host.text := by
  cases host with
  | ipv4 text addr reads => exact ipv4_noColon reads
  | ipv6 text addr reads => cases plain
  | hostname text _ chars _ => exact hostname_noChar chars (by decide)

theorem unbracketed {text : Text} (noBracket : '[' ∉ text)
    (port : Option PortText) :
    (text ++ Name.portSuffix port).head? ≠ some '[' := by
  intro first
  cases text with
  | nil =>
      cases port with
      | none | some port => simp [Name.portSuffix] at first
  | cons char rest =>
      have same : char = '[' := by simpa using first
      exact noBracket (same ▸ mem_cons_self)

end Host

namespace Name

def literal : Name → Option SocketAddr
  | ⟨.ipv4 _ addr _, none⟩ => some (.v4 addr 8448)
  | ⟨.ipv4 _ addr _, some port⟩ =>
      if port.signed then none else some (.v4 addr port.number)
  | ⟨.ipv6 _ _ _, none⟩ => none
  | ⟨.ipv6 _ addr _, some port⟩ =>
      if port.signed then none else some (.v6 addr 0 port.number)
  | ⟨.hostname _ _ _ _, _⟩ => none

theorem count_portSuffix (port : Option PortText) :
    (portSuffix port).count ':' < 2 := by
  cases port with
  | none => simp [portSuffix]
  | some port =>
      rw [portSuffix, count_cons_self,
        count_eq_zero.mpr (noColon_of_parseU16 port.reads)]
      omega

theorem getIpWithPort_ipv4 {text : Text} {addr : Ipv4Addr}
    (reads : readIpv4Addr.whole text = some addr) (port : Option PortText) :
    getIpWithPort (text ++ portSuffix port) =
      (literal ⟨.ipv4 text addr reads, port⟩).map .literal := by
  have noBracket : '[' ∉ text :=
    (readIpv4Addr_stopsAt (by decide) (by decide)).not_mem reads
  have noIpv6 := readSocketAddrV6_unbracketed (Host.unbracketed noBracket port)
  cases port with
  | none =>
      have noPort : readSocketAddrV4.run text = none := by
        apply readSocketAddrV4_eq_none
        intro other rest front
        rw [whole_eq_some.mp reads] at front
        cases front
        rfl
      rw [portSuffix, append_nil] at noIpv6 ⊢
      rw [getIpWithPort_address (parseSocketAddr_eq_none noPort noIpv6),
        parseIpAddr_ipv4 reads]
      rfl
  | some port =>
      have front : readIpv4Addr.run (text ++ portSuffix (some port)) =
          some (addr, ':' :: port.text) := readIpv4Addr_colon.run_whole _ reads
      cases signed : port.signed with
      | false =>
          have socket : parseSocketAddr (text ++ portSuffix (some port)) =
              some (.v4 addr port.number) := by
            rw [parseSocketAddr, whole_eq_some, run_orElse,
              readSocketAddrV4, run_bind, front, bind_some,
              run_bind, readPort_unsigned signed]
            rfl
          rw [getIpWithPort_socket socket]
          simp [literal, signed]
      | true =>
          have noPort : readSocketAddrV4.run
              (text ++ portSuffix (some port)) = none := by
            apply readSocketAddrV4_eq_none
            intro other rest read
            rw [front] at read
            cases read
            exact readPort_signed signed
          have noAddress : parseIpAddr (text ++ portSuffix (some port)) =
              none := by
            apply parseIpAddr_eq_none
            · rw [count_append,
                count_eq_zero.mpr (Host.ipv4_noColon reads), Nat.zero_add]
              exact count_portSuffix (some port)
            · rw [whole, front]
          rw [getIpWithPort_address (parseSocketAddr_eq_none noPort noIpv6),
            noAddress]
          simp [literal, signed]

theorem getIpWithPort_ipv6 {text : Text} {addr : Ipv6Addr}
    (reads : readIpv6Addr.whole text = some addr) (port : Option PortText) :
    getIpWithPort ('[' :: text ++ [']'] ++ portSuffix port) =
      (literal ⟨.ipv6 text addr reads, port⟩).map .literal := by
  have noIpv4 : readSocketAddrV4.run
      ('[' :: (text ++ ']' :: portSuffix port)) = none := by
    apply readSocketAddrV4_eq_none
    intro other rest front
    rw [readIpv4Addr_bracket] at front
    cases front
  have ipv6 := readSocketAddrV6_bracketed (portSuffix port) reads
  have noAddress : parseIpAddr ('[' :: (text ++ ']' :: portSuffix port)) =
      none := parseIpAddr_bracket
  have shape : '[' :: text ++ [']'] ++ portSuffix port =
      '[' :: (text ++ ']' :: portSuffix port) := by simp
  rw [shape]
  cases port with
  | none =>
      rw [getIpWithPort_address (parseSocketAddr_eq_none noIpv4 ipv6),
        noAddress]
      rfl
  | some port =>
      cases signed : port.signed with
      | false =>
          have socket : parseSocketAddr
              ('[' :: (text ++ ']' :: portSuffix (some port))) =
                some (.v6 addr 0 port.number) := by
            rw [parseSocketAddr, whole_orElse noIpv4,
              whole_eq_some, ipv6, portSuffix,
              readPort_unsigned signed]
            rfl
          rw [getIpWithPort_socket socket]
          simp [literal, signed]
      | true =>
          rw [portSuffix, readPort_signed signed] at ipv6
          rw [getIpWithPort_address (parseSocketAddr_eq_none noIpv4 ipv6),
            noAddress]
          simp [literal, signed]

theorem run_portSuffix (text : Text) (port : Option PortText) :
    readIpv4Addr.run (text ++ portSuffix port) = (readIpv4Addr.run text).map
        (fun read => (read.1, read.2 ++ portSuffix port)) := by
  cases port with
  | none => simp [portSuffix]
  | some port => exact readIpv4Addr_colon text port.text

theorem getIpWithPort_hostname {text : Text}
    (chars : ∀ char ∈ text, isHostnameChar char = true)
    (noAddress : readIpv4Addr.whole text = none) (port : Option PortText) :
    getIpWithPort (text ++ portSuffix port) = none := by
  have noColon : ':' ∉ text := Host.hostname_noChar chars (by decide)
  have noBracket : '[' ∉ text := Host.hostname_noChar chars (by decide)
  have noIpv6 := readSocketAddrV6_unbracketed (Host.unbracketed noBracket port)
  have few : (text ++ portSuffix port).count ':' < 2 := by
    rw [count_append, count_eq_zero.mpr noColon, Nat.zero_add]
    exact count_portSuffix port
  -- An address in front of the name ends inside the hostname.
  have inside : ∀ addr rest,
      readIpv4Addr.run (text ++ portSuffix port) = some (addr, rest) →
      ∃ char left, rest = char :: left ∧ char ≠ ':' := by
    intro addr rest front
    rw [run_portSuffix] at front
    obtain ⟨pair, read, same⟩ := map_eq_some_iff.mp front
    obtain ⟨other, left⟩ := pair
    obtain ⟨rfl, rfl⟩ : other = addr ∧ left ++ portSuffix port = rest := by
      simpa using same
    cases left with
    | nil =>
        rw [whole_eq_some.mpr read] at noAddress
        cases noAddress
    | cons char left =>
        refine ⟨char, left ++ portSuffix port, rfl, ?_⟩
        intro isColon
        have fewer : 0 + (char :: left).count ':' ≤ text.count ':' :=
          readIpv4Addr_takes _ _ _ read
        rw [isColon, count_cons_self, count_eq_zero.mpr noColon] at fewer
        omega
  have noPort : readSocketAddrV4.run (text ++ portSuffix port) = none := by
    apply readSocketAddrV4_eq_none
    intro addr rest front
    obtain ⟨char, left, rfl, differs⟩ := inside addr rest front
    have failed : (Reader.given ':').run (char :: left) = none := by
      simp [Reader.given, StateT.run, differs]
    rw [readPort, run_bind, failed]
    rfl
  have noAddr : readIpv4Addr.whole (text ++ portSuffix port) = none := by
    rw [eq_none_iff_forall_ne_some]
    intro addr reads
    obtain ⟨char, left, ends, _⟩ := inside addr [] (whole_eq_some.mp reads)
    cases ends
  rw [getIpWithPort_address (parseSocketAddr_eq_none noPort noIpv6),
    parseIpAddr_eq_none few noAddr]
  rfl

theorem getIpWithPort_name (name : Name) :
    getIpWithPort name.text = name.literal.map .literal := by
  obtain ⟨host, port⟩ := name
  cases host with
  | ipv4 text addr reads => exact getIpWithPort_ipv4 reads port
  | ipv6 text addr reads => exact getIpWithPort_ipv6 reads port
  | hostname text _ chars noAddress =>
      exact getIpWithPort_hostname chars noAddress port

theorem literal_eq_none {name : Name}
    (unread : getIpWithPort name.text = none) : name.literal = none := by
  rw [getIpWithPort_name] at unread
  exact map_eq_none_iff.mp unread

theorem literal_eq_some {name : Name} {actual : FedDest}
    (reads : getIpWithPort name.text = some actual) :
    ∃ address, name.literal = some address ∧ actual = .literal address := by
  rw [getIpWithPort_name] at reads
  obtain ⟨address, literal, same⟩ := map_eq_some_iff.mp reads
  exact ⟨address, literal, same.symm⟩

theorem splitAtColon_none (name : Name) (noPort : name.port = none)
    (plain : name.host.isIpv6 = false) : splitAtColon name.text = none := by
  rw [splitAtColon_eq_none, text, noPort, portSuffix, append_nil]
  exact Host.noColon plain

theorem splitAtColon_some (name : Name) {port : PortText}
    (given : name.port = some port) (plain : name.host.isIpv6 = false) :
    splitAtColon name.text = some (name.host.text, ':' :: port.text) := by
  rw [text, given, portSuffix]
  exact splitAtColon_append (Host.noColon plain)

theorem splitAtColon_ipv6 (name : Name) (bracketed : name.host.isIpv6 = true) :
    ∃ host port, splitAtColon name.text = some (host, port) ∧
      host ≠ name.host.text := by
  obtain ⟨host, port⟩ := name
  cases host with
  | ipv4 text addr reads
  | hostname text nonempty chars noAddress => cases bracketed
  | ipv6 text addr reads =>
      have colon : ':' ∈ (Host.ipv6 text addr reads).text := by
        have two : 2 + count ':' [] ≤ text.count ':' :=
          readIpv6Addr_takes _ _ _ (whole_eq_some.mp reads)
        have inside : ':' ∈ text := by
          apply count_pos_iff.mp
          omega
        simp [Host.text, inside]
      cases parts : splitAtColon (Name.text ⟨.ipv6 text addr reads, port⟩) with
      | none =>
          refine absurd ?_ (splitAtColon_eq_none.mp parts)
          exact mem_append_left _ colon
      | some pair =>
          refine ⟨pair.1, pair.2, rfl, ?_⟩
          intro same
          have noColon := (splitAtColon_eq_some parts).2.1
          rw [same] at noColon
          exact noColon colon

end Name

end ArcanaServer.Resolver
