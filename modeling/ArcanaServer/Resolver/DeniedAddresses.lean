import ArcanaServer.Resolver.Steps

namespace ArcanaServer.Resolver

open Library List Host FedDest

/-! How a request is prepared for its destination, and the addresses that no
request may go to. -/

structure Url where
  hostStr : Option Text
  deriving DecidableEq

/-- What other crates make of the text of a destination: the URI of the HTTP
request that is built for it, and the URL that is parsed from the URI. -/
structure Outgoing where
  tryIntoHttpRequest : Text → Except String Text
  tryFrom : Text → Except String Url

def Outgoing.url (outgoing : Outgoing) (base : Text) : Except String Url := do
  let uri ← outgoing.tryIntoHttpRequest base
  outgoing.tryFrom uri

namespace Surroundings

variable (surroundings : Surroundings) (outgoing : Outgoing)

def intoHttpRequest (actual : FedDest) : Except ResolverError Text :=
  match outgoing.tryIntoHttpRequest actual.httpsString with
  | .error failure =>
      .error (.badServerResponse ("Invalid destination: " ++ failure))
  | .ok uri => .ok uri

def validateUrl (url : Url) : Except ResolverError Unit :=
  match url.hostStr with
  | none => .ok ()
  | some urlHost =>
      match surroundings.ipAddressParse urlHost with
      | .error _ => .ok ()
      | .ok ip => surroundings.validateIp ip

def prepare (uri : Text) : Except ResolverError Url :=
  match outgoing.tryFrom uri with
  | .error failure => .error (.err failure)
  | .ok url => do
      surroundings.validateUrl url
      surroundings.checkRunning .prepare
      .ok url

def prepareRequest (actual : FedDest) : Except ResolverError Url := do
  let uri ← intoHttpRequest outgoing actual
  surroundings.prepare outgoing uri

/-- An address is read where there are no brackets around it.  The host of a
URL keeps the brackets of an IPv6 address, and an IPv4 address as it is. -/
structure Documented : Prop where
  parse : ∀ text ip,
    surroundings.ipAddressParse text = .ok ip ↔ parseIpAddr text = some ip
  hostIpv4 : ∀ text addr (port : Option PortText) url,
    readIpv4Addr.whole text = some addr →
    outgoing.url ("https://".toList ++ (text ++ Name.portSuffix port)) =
      .ok url → url.hostStr = some text
  hostIpv6 : ∀ rest url,
    outgoing.url ("https://".toList ++ '[' :: rest) = .ok url →
    ∃ inner, url.hostStr = some ('[' :: inner)

end Surroundings

theorem FedDest.httpsString_eq (dest : FedDest) :
    dest.httpsString = "https://".toList ++ dest.uriString := by
  cases dest with
  | literal addr => rfl
  | named host port => exact append_assoc _ _ _

def FedDest.IsAddress (dest : FedDest) (ip : IpAddr) : Prop :=
  match dest with
  | .literal addr => addr.ip = ip
  | .named host port =>
      ∃ name : Name, name.host.address = some ip ∧ name.text = host ++ port.text

def Surroundings.Denied (surroundings : Surroundings) (outgoing : Outgoing)
    (dest : FedDest) : Prop :=
  ∀ ip, dest.IsAddress ip → surroundings.validCidrRange ip = false →
    (surroundings.prepareRequest outgoing dest).isOk = false

namespace Surroundings

variable {surroundings : Surroundings} {outgoing : Outgoing}

theorem prepare_ok {uri : Text} {url : Url} :
    surroundings.prepare outgoing uri = .ok url ↔
      outgoing.tryFrom uri = .ok url ∧ surroundings.validateUrl url = .ok () ∧
        surroundings.running .prepare = true := by
  unfold prepare
  constructor
  · intro prepared
    cases parsed : outgoing.tryFrom uri with
    | error failure =>
        rw [parsed] at prepared
        cases prepared
    | ok other =>
        rw [parsed] at prepared
        obtain ⟨_, checked, later⟩ := bind_eq_ok prepared
        obtain ⟨_, stopped, same⟩ := bind_eq_ok later
        cases same
        refine ⟨rfl, checked, ?_⟩
        rw [checkRunning] at stopped
        split at stopped
        next running => exact running
        · cases stopped
  · intro ⟨parsed, checked, running⟩
    simp only [parsed, checked, checkRunning, running]
    rfl

theorem prepareRequest_ok {dest : FedDest} {url : Url} :
    surroundings.prepareRequest outgoing dest = .ok url ↔
      outgoing.url dest.httpsString = .ok url ∧
        surroundings.validateUrl url = .ok () ∧
        surroundings.running .prepare = true := by
  unfold prepareRequest intoHttpRequest Outgoing.url
  cases outgoing.tryIntoHttpRequest dest.httpsString with
  | error failure =>
      constructor
      · intro prepared
        cases prepared
      · intro ⟨made, _⟩
        cases made
  | ok uri => exact prepare_ok

theorem validateUrl_ok {url : Url} {host : Text}
    (hostStr : url.hostStr = some host) :
    surroundings.validateUrl url = .ok () ↔
      ∀ ip, surroundings.ipAddressParse host = .ok ip →
        surroundings.validCidrRange ip = true := by
  unfold validateUrl
  cases parsed : surroundings.ipAddressParse host with
  | error failure => simp [hostStr, parsed]
  | ok ip =>
      cases range : surroundings.validCidrRange ip with
      | false | true => simp [hostStr, parsed, validateIp, range]

theorem ipv4_refused (documented : surroundings.Documented outgoing)
    {dest : FedDest} {text : Text} {addr : Ipv4Addr} {port : Option PortText}
    (reads : readIpv4Addr.whole text = some addr)
    (shape : dest.uriString = text ++ Name.portSuffix port)
    (denied : surroundings.validCidrRange (.v4 addr) = false) (url : Url) :
    surroundings.prepareRequest outgoing dest ≠ .ok url := by
  intro prepared
  obtain ⟨made, checked, _⟩ := prepareRequest_ok.mp prepared
  rw [httpsString_eq, shape] at made
  have hostStr := documented.hostIpv4 text addr port url reads made
  have parsed := (documented.parse text (.v4 addr)).mpr (parseIpAddr_ipv4 reads)
  have allowed := (validateUrl_ok hostStr).mp checked _ parsed
  rw [denied] at allowed
  cases allowed

theorem bracketed_unchecked (documented : surroundings.Documented outgoing)
    {dest : FedDest} {rest : Text} (shape : dest.uriString = '[' :: rest) :
    (surroundings.prepareRequest outgoing dest).isOk = true ↔
      (outgoing.url dest.httpsString).isOk = true ∧
        surroundings.running .prepare = true := by
  constructor
  · intro prepared
    cases made : surroundings.prepareRequest outgoing dest with
    | error failure =>
        rw [made] at prepared
        cases prepared
    | ok url =>
        obtain ⟨same, _, running⟩ := prepareRequest_ok.mp made
        rw [same]
        exact ⟨rfl, running⟩
  · intro ⟨accepted, running⟩
    cases made : outgoing.url dest.httpsString with
    | error failure =>
        rw [made] at accepted
        cases accepted
    | ok url =>
        have bracket := made
        rw [httpsString_eq, shape] at bracket
        obtain ⟨inner, hostStr⟩ := documented.hostIpv6 rest url bracket
        have checked : surroundings.validateUrl url = .ok () := by
          rw [validateUrl_ok hostStr]
          intro ip parsed
          rw [documented.parse, parseIpAddr_bracket] at parsed
          cases parsed
        rw [prepareRequest_ok.mpr ⟨made, checked, running⟩]
        rfl

end Surroundings

namespace Name

def literalText (name : Name) : Text :=
  match name.literal with
  | some addr => addr.toText
  | none => name.text

def Written (name : Name) : Prop := name.literal.isSome = true ∨
    ∃ front back, splitAtColon name.text = some (front, back) ∧
      byteLength back ≤ 16

variable {name other : Name} {addr : Ipv6Addr}

theorem ipv6_of_address (address : name.host.address = some (.v6 addr)) :
    ∃ text port, readIpv6Addr.whole text = some addr ∧
      name.text = '[' :: (text ++ ']' :: portSuffix port) := by
  obtain ⟨host, port⟩ := name
  cases host with
  | ipv4 text ip reads | hostname text nonempty chars noAddress => cases address
  | ipv6 text ip reads =>
      cases address
      exact ⟨text, port, reads, by simp [Name.text, Host.text]⟩

theorem address_of_bracket {rest : Text} (shape : name.text = '[' :: rest) :
    ∃ addr, name.host.address = some (.v6 addr) := by
  obtain ⟨host, port⟩ := name
  have first : (Name.text ⟨host, port⟩).head? = some '[' := by
    rw [shape]
    rfl
  cases host with
  | ipv4 text ip reads =>
      have noBracket : '[' ∉ text :=
        (readIpv4Addr_stopsAt (by decide) (by decide)).not_mem reads
      exact absurd first (unbracketed noBracket port)
  | ipv6 text ip reads => exact ⟨ip, rfl⟩
  | hostname text nonempty chars noAddress =>
      have noBracket : '[' ∉ text := hostname_noChar chars (by decide)
      exact absurd first (unbracketed noBracket port)

theorem address_of_text (same : name.text = other.text)
    (address : name.host.address = some (.v6 addr)) :
    other.host.address = some (.v6 addr) := by
  obtain ⟨text, port, reads, shape⟩ := ipv6_of_address address
  obtain ⟨found, isFound⟩ := address_of_bracket (same.symm.trans shape)
  obtain ⟨inner, suffix, readsToo, shapeToo⟩ := ipv6_of_address isFound
  have stops : readIpv6Addr.StopsAt ']' :=
    readIpv6Addr_stopsAt (by decide) (by decide) (by decide) (by decide)
  have front := stops.run_whole (portSuffix port) reads
  have equal : text ++ ']' :: portSuffix port =
      inner ++ ']' :: portSuffix suffix := by
    rw [shape, shapeToo] at same
    exact (cons.inj same).2
  rw [equal, stops.run_whole _ readsToo] at front
  obtain ⟨rfl, _⟩ : found = addr ∧ _ := by simpa using front
  exact isFound

theorem literal_address {addr : SocketAddr} (reads : name.literal = some addr) :
    name.host.address = some addr.ip := by
  have followed := followed_literal (.delegating name) reads
  exact followed.1.host

theorem two_le_count (address : name.host.address = some (.v6 addr)) :
    2 ≤ name.text.count ':' := by
  obtain ⟨text, port, reads, shape⟩ := ipv6_of_address address
  have colons : 2 + count ':' [] ≤ text.count ':' :=
    readIpv6Addr_takes _ _ _ (Reader.whole_eq_some.mp reads)
  rw [shape, count_cons, count_append]
  omega

end Name

open Name

namespace Surroundings

variable {surroundings : Surroundings} {outgoing : Outgoing} {name : Name}
  {cached after : Cache} {cache : Bool} {actual : FedDest} {addr : Ipv6Addr}

theorem split_address {front back : Text} (unread : name.literal = none)
    (parts : splitAtColon name.text = some (front, back)) :
    (named front (portOrDefault back)).IsAddress (.v6 addr) ↔
      name.host.address = some (.v6 addr) ∧ name.Written := by
  obtain ⟨whole, noColon, _⟩ := splitAtColon_eq_some parts
  change (∃ other : Name, other.host.address = some (.v6 addr) ∧
    other.text = front ++ (portOrDefault back).text) ↔ _
  unfold portOrDefault PortString.ofText
  split
  next fits =>
    constructor
    · intro found
      obtain ⟨other, address, same⟩ := found
      have text : other.text = name.text := same.trans whole.symm
      exact ⟨Name.address_of_text text address, .inr ⟨_, _, parts, fits⟩⟩
    · intro both
      exact ⟨name, both.1, whole⟩
  next long =>
    constructor
    · intro found
      obtain ⟨other, address, same⟩ := found
      have colons := Name.two_le_count address
      have few : count ':' defaultPort.text = 1 := rfl
      rw [same, count_append, count_eq_zero.mpr noColon,
        Option.getD_none, few] at colons
      omega
    · intro both
      rcases both.2 with literal | fits
      · rw [unread] at literal
        cases literal
      · obtain ⟨other, suffix, same, short⟩ := fits
        rw [parts] at same
        cases same
        exact absurd short long

theorem hostname_address {port : PortString}
    (hostname : name.host.isHostname = true) :
    (named name.text port).IsAddress (.v6 addr) ↔
      name.host.address = some (.v6 addr) ∧ name.Written := by
  obtain ⟨host, given⟩ := name
  cases host with
  | ipv4 text ip reads | ipv6 text ip reads => cases hostname
  | hostname text nonempty chars noAddress =>
      apply iff_of_false
      · intro ⟨other, address, same⟩
        obtain ⟨inner, suffix, _, shape⟩ := Name.ipv6_of_address address
        have noBracket : '[' ∉ text := hostname_noChar chars (by decide)
        have first : (text ++ (Name.portSuffix given ++ port.text)).head? =
            some '[' := by
          rw [← append_assoc]
          exact (congrArg head? (same.symm.trans shape))
        rw [head?_append_of_ne_nil _ nonempty] at first
        exact noBracket (mem_of_head? first)
      · intro ⟨address, _⟩
        cases address

theorem placed_address
    (placed : surroundings.Placed cached cache name.text actual after) :
    actual.IsAddress (.v6 addr) ↔
      name.host.address = some (.v6 addr) ∧ name.Written := by
  cases placed with
  | literal reads =>
      obtain ⟨socket, literal, rfl⟩ := literal_eq_some reads
      have written : name.Written := .inl (by rw [literal]; rfl)
      rw [Name.literal_address literal, Option.some.injEq]
      exact (and_iff_left written).symm
  | split unread parts stored =>
      exact split_address (literal_eq_none unread) parts
  | record unread noPort applies stored | bare unread noPort noRecord stored =>
      exact hostname_address (unread_iff.mp ⟨unread, noPort⟩).1

theorem placed_uriString
    (placed : surroundings.Placed cached cache name.text actual after)
    (address : name.host.address = some (.v6 addr)) (written : name.Written) :
    actual.uriString = name.literalText := by
  unfold Name.literalText
  cases placed with
  | literal reads =>
      obtain ⟨socket, literal, rfl⟩ := literal_eq_some reads
      rw [literal]
      rfl
  | split unread parts stored =>
      have unread := literal_eq_none unread
      rw [unread]
      rcases written with literal | fits
      · rw [unread] at literal
        cases literal
      · obtain ⟨front, back, same, short⟩ := fits
        rw [parts] at same
        cases same
        rw [uriString, portOrDefault, PortString.ofText,
          dif_pos short]
        exact (splitAtColon_eq_some parts).1.symm
  | record unread noPort applies stored | bare unread noPort noRecord stored =>
      have hostname := (unread_iff.mp ⟨unread, noPort⟩).1
      rw [address_hostname hostname] at address
      cases address

/-- A bracketed address that is denied: the name is well read, the URL is
accepted, and the server is not about to stop. -/
structure Unguarded (surroundings : Surroundings) (outgoing : Outgoing)
    (name : Name) : Prop where
  address : ∃ addr, name.host.address = some (.v6 addr) ∧
    surroundings.validCidrRange (.v6 addr) = false
  written : name.Written
  accepted :
    (outgoing.url ("https://".toList ++ name.literalText)).isOk = true
  running : surroundings.running .prepare = true

theorem ipv4_denied (documented : surroundings.Documented outgoing)
    {dest : FedDest} {addr : Ipv4Addr} (isAddress : dest.IsAddress (.v4 addr))
    (denied : surroundings.validCidrRange (.v4 addr) = false) :
    (surroundings.prepareRequest outgoing dest).isOk = false := by
  have shape : ∃ text port, readIpv4Addr.whole text = some addr ∧
      dest.uriString = text ++ Name.portSuffix port := by
    cases dest with
    | literal socket =>
        cases socket with
        | v4 ip port =>
            cases isAddress
            exact ⟨addr.toText, some ⟨decimal port, port, parseU16_decimal port⟩,
              readIpv4Addr_toText addr, rfl⟩
        | v6 ip scopeId port => cases isAddress
    | named host port =>
        obtain ⟨⟨host, given⟩, address, same⟩ := isAddress
        cases host with
        | ipv4 text ip reads =>
            cases address
            exact ⟨text, given, reads, same.symm⟩
        | ipv6 text ip reads
        | hostname text nonempty chars noAddress => cases address
  obtain ⟨text, port, reads, same⟩ := shape
  have refused := ipv4_refused documented reads same denied
  cases prepared : surroundings.prepareRequest outgoing dest with
  | error failure => rfl
  | ok url => exact absurd prepared (refused url)

theorem bracket_of_address {dest : FedDest}
    (isAddress : dest.IsAddress (.v6 addr)) :
    ∃ rest, dest.uriString = '[' :: rest := by
  cases dest with
  | literal socket =>
      cases socket with
      | v4 ip port => cases isAddress
      | v6 ip scopeId port =>
          rw [uriString, SocketAddr.toText]
          split
          · exact ⟨_, rfl⟩
          · exact ⟨_, rfl⟩
  | named host port =>
      obtain ⟨name, address, same⟩ := isAddress
      obtain ⟨text, suffix, _, shape⟩ := Name.ipv6_of_address address
      exact ⟨_, same.symm.trans shape⟩

theorem denied_iff (documented : surroundings.Documented outgoing)
    (placed : surroundings.Placed cached cache name.text actual after) :
    surroundings.Denied outgoing actual ↔
      ¬surroundings.Unguarded outgoing name := by
  constructor
  · intro denied unguarded
    obtain ⟨addr, address, range⟩ := unguarded.address
    have isAddress := (placed_address placed).mpr ⟨address, unguarded.written⟩
    obtain ⟨rest, bracket⟩ := bracket_of_address isAddress
    have prepared := (bracketed_unchecked documented bracket).mpr
      ⟨by rw [httpsString_eq,
            placed_uriString placed address unguarded.written]
          exact unguarded.accepted,
        unguarded.running⟩
    rw [denied _ isAddress range] at prepared
    cases prepared
  · intro guarded ip isAddress range
    cases ip with
    | v4 addr => exact ipv4_denied documented isAddress range
    | v6 addr =>
        obtain ⟨address, written⟩ := (placed_address placed).mp isAddress
        obtain ⟨rest, bracket⟩ := bracket_of_address isAddress
        cases prepared : (surroundings.prepareRequest outgoing actual).isOk with
        | false => rfl
        | true =>
            obtain ⟨accepted, running⟩ :=
              (bracketed_unchecked documented bracket).mp prepared
            rw [httpsString_eq,
              placed_uriString placed address written] at accepted
            exact absurd ⟨⟨addr, address, range⟩, written, accepted, running⟩
              guarded

end Surroundings

namespace Outgoing

def hostOf (authority : Text) : Text :=
  if authority.head? = some '[' then
    authority.takeWhile (fun char => char ≠ ']') ++ [']']
  else
    match splitAtColon authority with
    | some (host, _) => host
    | none => authority

def plain : Outgoing where
  tryIntoHttpRequest := fun base => .ok base
  tryFrom := fun uri => .ok { hostStr := some (hostOf (uri.drop 8)) }

theorem url_plain (authority : Text) :
    plain.url ("https://".toList ++ authority) =
      .ok { hostStr := some (hostOf authority) } := by
  have behind : ("https://".toList ++ authority).drop 8 = authority :=
    drop_left' rfl
  change Except.ok (Url.mk (some (hostOf
    (("https://".toList ++ authority).drop 8)))) = _
  rw [behind]

end Outgoing

theorem Surroundings.documented_plain (delegated : Name) :
    (Surroundings.delegating delegated).Documented Outgoing.plain where
  parse := by
    intro text ip
    delta Surroundings.delegating
    dsimp only
    cases parseIpAddr text with
    | none | some other => simp
  hostIpv4 := by
    intro text addr port url reads made
    rw [Outgoing.url_plain] at made
    cases made
    have noBracket : '[' ∉ text :=
      (readIpv4Addr_stopsAt (by decide) (by decide)).not_mem reads
    have noColon := ipv4_noColon reads
    change some (Outgoing.hostOf (text ++ Name.portSuffix port)) = some text
    rw [Outgoing.hostOf, if_neg (unbracketed noBracket port)]
    cases port with
    | none =>
        rw [Name.portSuffix, append_nil, splitAtColon_eq_none.mpr noColon]
    | some port => rw [Name.portSuffix, splitAtColon_append noColon]
  hostIpv6 := by
    intro rest url made
    rw [Outgoing.url_plain] at made
    cases made
    exact ⟨rest.takeWhile (fun char => char ≠ ']') ++ [']'], rfl⟩

def Name.localhost : Host :=
  .ipv4 "127.0.0.1".toList ⟨127, 0, 0, 1⟩ (by decide +kernel)

/-- A request to a denied address is refused where the address is resolved or
where the request is prepared, unless the address is in brackets. -/
theorem resolveActualDest_denied_iff {surroundings : Surroundings}
    {outgoing : Outgoing} {cached after : Cache} {cache : Bool}
    {dest name : Name} {result : CachedDest}
    (documented : surroundings.Documented outgoing)
    (decides : Name.Decides surroundings dest name)
    (resolved : surroundings.resolveActualDest cached dest.text cache =
      .ok (result, after)) :
    surroundings.Denied outgoing result.dest ↔
      ¬surroundings.Unguarded outgoing name := by
  have placed := Surroundings.resolveActualDest_placed resolved
  rw [decides.decidingName] at placed
  exact Surroundings.denied_iff documented placed

theorem delegatedIpv4_denied :
    let name : Name := ⟨localhost, some port8443⟩
    let result : CachedDest := {
      dest := .literal (.v4 ⟨127, 0, 0, 1⟩ 8443)
      host := "127.0.0.1:8443".toList
      expire := 100000 }
    (Surroundings.delegating name).resolveActualDest Cache.empty
        matrixOrg.text true = .ok (result, Cache.empty) ∧
      (Surroundings.delegating name).Denied Outgoing.plain result.dest := by
  have resolved : (Surroundings.delegating
      ⟨localhost, some port8443⟩).resolveActualDest Cache.empty
        matrixOrg.text true = .ok ({
          dest := .literal (.v4 ⟨127, 0, 0, 1⟩ 8443)
          host := "127.0.0.1:8443".toList
          expire := 100000 }, Cache.empty) := rfl
  have decides : Name.Decides (.delegating ⟨localhost, some port8443⟩) matrixOrg
        ⟨localhost, some port8443⟩ :=
    .delegated rfl rfl (by decide +kernel)
  refine ⟨resolved, (resolveActualDest_denied_iff
    (Surroundings.documented_plain _) decides resolved).mpr ?_⟩
  intro unguarded
  obtain ⟨addr, address, _⟩ := unguarded.address
  cases address

/-- The request to the denied address that the well-known file names is
prepared. -/
theorem delegatedIpv6_prepared :
    ¬∀ (surroundings : Surroundings) (outgoing : Outgoing)
      (cached after : Cache) (cache : Bool) (dest name : Name)
      (result : CachedDest), surroundings.Documented outgoing →
      Name.Decides surroundings dest name →
      surroundings.resolveActualDest cached dest.text cache =
        .ok (result, after) →
      surroundings.Denied outgoing result.dest := by
  intro refused
  have denied := refused (.delegating ⟨loopback, some port8443⟩)
    Outgoing.plain Cache.empty Cache.empty true matrixOrg
    ⟨loopback, some port8443⟩
    { dest := .literal (.v6 (.ofGroups [0, 0, 0, 0, 0, 0, 0, 1]) 0 8443)
      host := "[::1]:8443".toList
      expire := 100000 }
    (Surroundings.documented_plain _)
    (.delegated rfl rfl (by decide +kernel)) rfl
    (.v6 (.ofGroups [0, 0, 0, 0, 0, 0, 0, 1])) rfl (by decide +kernel)
  revert denied
  decide +kernel

end ArcanaServer.Resolver
