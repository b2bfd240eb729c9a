import ArcanaServer.Library.Settles
import ArcanaServer.Resolver.Names

namespace ArcanaServer.Resolver

open Library FedDest Option Cache

namespace Surroundings

variable (surroundings : Surroundings)

def recordOf : List Text → Option SrvRecord
  | [] => none
  | hostname :: rest =>
      match surroundings.srvLookup (trimEndMatches '.' hostname) with
      | .error .noRecordsFound => recordOf rest
      | .error _ => none
      | .ok result => result.head?

def srvRecord (hostname : Text) : Option SrvRecord :=
  surroundings.recordOf (srvHostnames hostname)

def decidingName (dest : Text) : Text :=
  if getIpWithPort dest = none ∧ splitAtColon dest = none then
    (surroundings.requestWellKnown dest).getD dest
  else dest

inductive Placed (cached : Cache) (cache : Bool) (name : Text) :
    FedDest → Cache → Prop
  | literal {dest : FedDest} (reads : getIpWithPort name = some dest) :
      Placed cached cache name dest cached
  | split {host port : Text} {after : Cache}
      (unread : getIpWithPort name = none)
      (parts : splitAtColon name = some (host, port))
      (stored : surroundings.conditionalQueryAndCache cached host
        ((parseU16 port).getD 8448) cache = .ok after) :
      Placed cached cache name (.named host (portOrDefault port)) after
  | record {record : SrvRecord} {after : Cache}
      (unread : getIpWithPort name = none)
      (noPort : splitAtColon name = none)
      (applies : surroundings.srvRecord name = some record)
      (stored : surroundings.conditionalQueryAndCacheOverride cached name
        (trimEndMatches '.' record.target) record.port cache = .ok after) :
      Placed cached cache name (.named name
        (portOrDefault (':' :: decimal record.port))) after
  | bare {after : Cache} (unread : getIpWithPort name = none)
      (noPort : splitAtColon name = none)
      (noRecord : surroundings.srvRecord name = none)
      (stored : surroundings.conditionalQueryAndCache cached name 8448 cache =
        .ok after) :
      Placed cached cache name (.named name defaultPort) after

variable {surroundings}

theorem SrvRecord.overrider_port (record : SrvRecord) :
    record.overrider.port = some record.port :=
  port_decimal record.port

theorem querySrvRecords_ok {hostnames : List Text} {answer : Option FedDest}
    (answered : surroundings.querySrvRecords hostnames = .ok answer) :
    answer = (surroundings.recordOf hostnames).map SrvRecord.overrider := by
  induction hostnames with
  | nil =>
      cases answered
      rfl
  | cons hostname rest ih =>
      obtain ⟨_, _, queried⟩ := bind_eq_ok answered
      rw [recordOf]
      cases found : surroundings.srvLookup (trimEndMatches '.' hostname) with
      | ok result =>
          rw [found] at queried
          cases queried
          rfl
      | error failure =>
          rw [found] at queried
          obtain ⟨_, handled, later⟩ := bind_eq_ok queried
          cases failure with
          | noRecordsFound => exact ih later
          | timeout text | noConnections text | other text => cases handled

section

variable {cached after : Cache} {cache : Bool}

theorem stored_destinations {untername hostname : Text} {port : Port}
    (stored : surroundings.conditionalQueryAndCacheOverride cached untername
      hostname port cache = .ok after) :
    after.destinations = cached.destinations := by
  unfold conditionalQueryAndCacheOverride at stored
  split at stored
  · cases stored
    rfl
  · split at stored
    · cases stored
      rfl
    · obtain ⟨_, _, queried⟩ := bind_eq_ok stored
      cases answer : surroundings.lookupIp hostname with
      | error failure =>
          rw [answer] at queried
          obtain ⟨_, _, same⟩ := bind_eq_ok queried
          cases same
          rfl
      | ok ips =>
          rw [answer] at queried
          cases queried
          rfl

theorem actualDest3_placed {name : Text} {dest : FedDest}
    (chosen : surroundings.actualDest3 cached cache name = .ok (dest, after)) :
    surroundings.Placed cached cache name dest after := by
  unfold actualDest3 at chosen
  cases read : getIpWithPort name with
  | some hostAndPort =>
      rw [read] at chosen
      cases chosen
      exact .literal read
  | none =>
      rw [read] at chosen
      cases parts : splitAtColon name with
      | some pair =>
          obtain ⟨host, port⟩ := pair
          rw [parts] at chosen
          obtain ⟨_, stored, same⟩ := bind_eq_ok chosen
          cases same
          exact .split read parts stored
      | none =>
          rw [parts] at chosen
          obtain ⟨answer, answered, settled⟩ := bind_eq_ok chosen
          have applied := querySrvRecords_ok answered
          cases applies : surroundings.srvRecord name with
          | none =>
              rw [srvRecord] at applies
              rw [applies] at applied
              rw [applied] at settled
              obtain ⟨_, stored, same⟩ := bind_eq_ok settled
              rw [addPortToHostname, parts] at same
              cases same
              exact .bare read parts applies stored
          | some record =>
              rw [srvRecord] at applies
              rw [applies] at applied
              rw [applied] at settled
              have target : record.overrider.hostname =
                  trimEndMatches '.' record.target := rfl
              simp only [map_some, actualDest33, SrvRecord.overrider_port,
                getD_some, target] at settled
              obtain ⟨_, stored, same⟩ := bind_eq_ok settled
              cases same
              exact .record read parts applies stored

theorem chooseDest_decides {dest host : Text} {actual : FedDest}
    (chosen : surroundings.chooseDest cached cache dest =
      .ok (actual, host, after)) :
    surroundings.actualDest3 cached cache (surroundings.decidingName dest) =
      .ok (actual, after) := by
  unfold chooseDest at chosen
  cases read : getIpWithPort dest with
  | some hostPort =>
      rw [read] at chosen
      obtain ⟨_, placed, same⟩ := bind_eq_ok chosen
      cases placed
      cases same
      rw [decidingName, read, if_neg (by simp), actualDest3, read]
      rfl
  | none =>
      rw [read] at chosen
      cases parts : splitAtColon dest with
      | some pair =>
          obtain ⟨front, port⟩ := pair
          rw [parts] at chosen
          obtain ⟨_, placed, same⟩ := bind_eq_ok chosen
          cases same
          rw [decidingName, parts, if_neg (by simp), actualDest3, read, parts]
          exact placed
      | none =>
          rw [parts] at chosen
          obtain ⟨_, _, asked⟩ := bind_eq_ok chosen
          rw [decidingName, if_pos ⟨read, parts⟩]
          cases answer : surroundings.requestWellKnown dest with
          | some delegated =>
              rw [answer] at asked
              obtain ⟨_, placed, same⟩ := bind_eq_ok asked
              cases same
              exact placed
          | none =>
              rw [answer] at asked
              obtain ⟨record, queried, settled⟩ := bind_eq_ok asked
              rw [getD_none, actualDest3, read, parts]
              simp only [queried]
              cases record with
              | none | some overrider =>
                  obtain ⟨_, placed, same⟩ := bind_eq_ok settled
                  cases same
                  exact placed

theorem resolveActualDest_placed {dest : Text} {result : CachedDest}
    (resolved : surroundings.resolveActualDest cached dest cache =
      .ok (result, after)) :
    surroundings.Placed cached cache (surroundings.decidingName dest)
      result.dest after := by
  obtain ⟨_, _, chosen⟩ := bind_eq_ok resolved
  obtain ⟨_, placed, same⟩ := bind_eq_ok chosen
  cases same
  exact actualDest3_placed (chooseDest_decides placed)

theorem Placed.destinations {name : Text} {dest : FedDest}
    (placed : surroundings.Placed cached cache name dest after) :
    after.destinations = cached.destinations := by
  cases placed with
  | literal reads => rfl
  | split unread parts stored
  | record unread noPort applies stored
  | bare unread noPort noRecord stored => exact stored_destinations stored

end

end Surroundings

open Library FedDest

/-! Where the destination has the host and the port of the name that decides,
and which names the parsers take apart at the wrong place. -/

def FedDest.HasHost (dest : FedDest) (host : Host) : Prop :=
  match dest with
  | .literal addr => host.address = some addr.ip
  | .named text _ => text = host.text

instance (dest : FedDest) (host : Host) : Decidable (dest.HasHost host) :=
  match dest with
  | .literal addr =>
      inferInstanceAs (Decidable (host.address = some addr.ip))
  | .named text _ => inferInstanceAs (Decidable (text = host.text))

/-- A port that does not fit into a `PortString` becomes the default port. -/
def PortText.TooLong (port : PortText) : Prop :=
  16 < byteLength (':' :: port.text) ∧ port.number ≠ 8448

instance (port : PortText) : Decidable port.TooLong :=
  inferInstanceAs (Decidable (_ ∧ _))

namespace Name

inductive Decides (surroundings : Surroundings) (dest : Name) : Name → Prop
  | itself (kept : dest.host.isHostname = false ∨ dest.port ≠ none ∨
      surroundings.requestWellKnown dest.text = none) :
      Decides surroundings dest dest
  | delegated {name : Name} (hostname : dest.host.isHostname = true)
      (noPort : dest.port = none)
      (answered : surroundings.requestWellKnown dest.text = some name.text) :
      Decides surroundings dest name

def expectedPort (surroundings : Surroundings) : Name → Port
  | ⟨_, some port⟩ => port.number
  | ⟨.ipv4 _ _ _, none⟩ => 8448
  | ⟨.ipv6 _ _ _, none⟩ => 8448
  | ⟨.hostname text _ _ _, none⟩ =>
      ((surroundings.srvRecord text).map SrvRecord.port).getD 8448

structure Followed (surroundings : Surroundings) (name : Name)
    (dest : FedDest) : Prop where
  host : dest.HasHost name.host
  port : dest.port = some (name.expectedPort surroundings)

/-- A bracketed address without a port is split at its own first colon, and so
is one whose port has a plus sign. -/
def Misread : Name → Prop
  | ⟨.ipv4 _ _ _, none⟩ => False
  | ⟨.ipv4 _ _ _, some port⟩ => port.signed = true ∧ port.TooLong
  | ⟨.ipv6 _ _ _, none⟩ => True
  | ⟨.ipv6 _ _ _, some port⟩ => port.signed = true
  | ⟨.hostname _ _ _ _, none⟩ => False
  | ⟨.hostname _ _ _ _, some port⟩ => port.TooLong

instance : DecidablePred Misread
  | ⟨.ipv4 _ _ _, none⟩ => isFalse not_false
  | ⟨.ipv4 _ _ _, some port⟩ =>
      inferInstanceAs (Decidable (port.signed = true ∧ port.TooLong))
  | ⟨.ipv6 _ _ _, none⟩ => isTrue trivial
  | ⟨.ipv6 _ _ _, some port⟩ =>
      inferInstanceAs (Decidable (port.signed = true))
  | ⟨.hostname _ _ _ _, none⟩ => isFalse not_false
  | ⟨.hostname _ _ _ _, some port⟩ => inferInstanceAs (Decidable port.TooLong)

variable {surroundings : Surroundings} {dest name : Name}

theorem unread_iff :
    getIpWithPort name.text = none ∧ splitAtColon name.text = none ↔
      name.host.isHostname = true ∧ name.port = none := by
  obtain ⟨host, port⟩ := name
  rw [getIpWithPort_name]
  cases bracketed : host.isIpv6 with
  | true =>
      obtain ⟨front, back, parts, _⟩ := splitAtColon_ipv6 ⟨host, port⟩ bracketed
      have noHostname : host.isHostname = false := by
        cases host <;> first | rfl | cases bracketed
      simp [parts, noHostname]
  | false =>
      cases port with
      | some port =>
          simp [splitAtColon_some ⟨host, some port⟩ rfl bracketed]
      | none =>
          rw [splitAtColon_none ⟨host, none⟩ rfl bracketed]
          cases host with
          | ipv4 text addr reads => simp [literal, Host.isHostname]
          | ipv6 text addr reads => cases bracketed
          | hostname text nonempty chars noAddress =>
              simp [literal, Host.isHostname]

theorem Decides.decidingName (decides : Decides surroundings dest name) :
    surroundings.decidingName dest.text = name.text := by
  unfold Surroundings.decidingName
  cases decides with
  | itself kept =>
      split
      next unread =>
        obtain ⟨hostname, noPort⟩ := unread_iff.mp unread
        have noWellKnown : surroundings.requestWellKnown dest.text = none := by
          simpa [hostname, noPort] using kept
        rw [noWellKnown, getD_none]
      · rfl
  | delegated hostname noPort answered =>
      rw [if_pos (unread_iff.mpr ⟨hostname, noPort⟩), answered,
        getD_some]

theorem port_portOrDefault (host : Text) (port : PortText) :
    (named host (portOrDefault (':' :: port.text))).port =
      some port.number ↔ ¬port.TooLong := by
  change parseU16 ((portOrDefault (':' :: port.text)).text.drop 1) =
    some port.number ↔ _
  unfold portOrDefault PortString.ofText PortText.TooLong
  split
  next fits =>
    have short : ¬16 < byteLength (':' :: port.text) := Nat.not_lt.mpr fits
    simp [port.reads, short]
  next long =>
    have default : parseU16 (defaultPort.text.drop 1) = some 8448 :=
      port_defaultPort host
    have tooLong := Nat.lt_of_not_le long
    simp only [getD_none, default, some.injEq, tooLong,
      true_and, ne_eq, not_not]
    exact eq_comm

theorem followed_literal (surroundings : Surroundings) {addr : SocketAddr}
    (reads : name.literal = some addr) :
    name.Followed surroundings (.literal addr) ∧ ¬name.Misread := by
  obtain ⟨host, port⟩ := name
  cases host with
  | ipv4 text ip whole =>
      cases port with
      | none =>
          cases reads
          exact ⟨⟨rfl, rfl⟩, not_false⟩
      | some port =>
          obtain ⟨unsigned, rfl⟩ : port.signed = false ∧
              SocketAddr.v4 ip port.number = addr := by
            simpa [literal] using reads
          exact ⟨⟨rfl, rfl⟩, fun misread => by simp [Misread, unsigned] at misread⟩
  | ipv6 text ip whole =>
      cases port with
      | none => cases reads
      | some port =>
          obtain ⟨unsigned, rfl⟩ : port.signed = false ∧
              SocketAddr.v6 ip 0 port.number = addr := by
            simpa [literal] using reads
          exact ⟨⟨rfl, rfl⟩, fun misread => by simp [Misread, unsigned] at misread⟩
  | hostname text nonempty chars noAddress => cases reads

/-- A name with a port that no parser sees is split before the port. -/
theorem followed_split {port : PortText} (unread : name.literal = none)
    (given : name.port = some port) (plain : name.host.isIpv6 = false) :
    name.Followed surroundings (.named name.host.text
      (portOrDefault (':' :: port.text))) ↔ ¬name.Misread := by
  obtain ⟨host, _⟩ := name
  cases given
  have misread : Misread ⟨host, some port⟩ ↔ port.TooLong := by
    cases host with
    | ipv4 text ip whole =>
        have signed : port.signed = true := by
          simpa [literal] using unread
        simp [Misread, signed]
    | ipv6 text ip whole => cases plain
    | hostname text nonempty chars noAddress => rfl
  rw [misread, ← port_portOrDefault host.text]
  constructor
  · exact fun followed => followed.port
  · exact fun same => ⟨rfl, same⟩

/-- A bracketed address that no parser sees is cut off at its first colon. -/
theorem followed_ipv6 {front : Text} {port : PortString}
    (unread : name.literal = none) (bracketed : name.host.isIpv6 = true)
    (cut : front ≠ name.host.text) :
    name.Followed surroundings (.named front port) ↔ ¬name.Misread := by
  have misread : name.Misread := by
    obtain ⟨host, given⟩ := name
    cases host with
    | ipv4 text ip whole => cases bracketed
    | ipv6 text ip whole =>
        cases given with
        | none => trivial
        | some given => simpa [literal, Misread] using unread
    | hostname text nonempty chars noAddress => cases bracketed
  constructor
  · exact fun followed => absurd followed.host cut
  · exact fun fine => absurd misread fine

theorem expectedPort_hostname (hostname : name.host.isHostname = true)
    (noPort : name.port = none) :
    name.expectedPort surroundings =
      ((surroundings.srvRecord name.text).map SrvRecord.port).getD 8448 := by
  obtain ⟨host, _⟩ := name
  cases noPort
  cases host with
  | ipv4 text ip whole | ipv6 text ip whole => cases hostname
  | hostname text nonempty chars noAddress =>
      rw [Name.text, portSuffix, List.append_nil]
      rfl

theorem followed_hostname {port : PortString}
    (hostname : name.host.isHostname = true) (noPort : name.port = none)
    (same : (named name.text port).port =
      some (name.expectedPort surroundings)) :
    name.Followed surroundings (.named name.text port) ∧ ¬name.Misread := by
  obtain ⟨host, _⟩ := name
  cases noPort
  cases host with
  | ipv4 text ip whole | ipv6 text ip whole => cases hostname
  | hostname text nonempty chars noAddress =>
      exact ⟨⟨List.append_nil text, same⟩, not_false⟩

theorem followed_iff {cached after : Cache} {cache : Bool} {actual : FedDest}
    (placed : surroundings.Placed cached cache name.text actual after) :
    name.Followed surroundings actual ↔ ¬name.Misread := by
  cases placed with
  | literal reads =>
      obtain ⟨addr, literal, rfl⟩ := literal_eq_some reads
      have both := followed_literal surroundings literal
      exact iff_of_true both.1 both.2
  | split unread parts stored =>
      cases bracketed : name.host.isIpv6 with
      | true =>
          obtain ⟨front, back, cut, differs⟩ := splitAtColon_ipv6 name bracketed
          rw [parts] at cut
          cases cut
          exact followed_ipv6 (literal_eq_none unread) bracketed differs
      | false =>
          cases given : name.port with
          | none =>
              rw [splitAtColon_none name given bracketed] at parts
              cases parts
          | some port =>
              rw [splitAtColon_some name given bracketed] at parts
              cases parts
              exact followed_split (literal_eq_none unread) given bracketed
  | record unread noPort applies stored =>
      obtain ⟨hostname, noPort⟩ := unread_iff.mp ⟨unread, noPort⟩
      have both := followed_hostname hostname noPort
        (by rw [expectedPort_hostname hostname noPort, applies]
            exact port_decimal _)
      exact iff_of_true both.1 both.2
  | bare unread noPort noRecord stored =>
      obtain ⟨hostname, noPort⟩ := unread_iff.mp ⟨unread, noPort⟩
      have both := followed_hostname hostname noPort
        (by rw [expectedPort_hostname hostname noPort, noRecord]
            exact port_defaultPort _)
      exact iff_of_true both.1 both.2

end Name

namespace Name

def matrixOrg : Name where
  host := .hostname "matrix.org".toList (by decide)
    (List.all_eq_true.mp (by decide)) (by decide)
  port := none

def loopback : Host :=
  .ipv6 "::1".toList (.ofGroups [0, 0, 0, 0, 0, 0, 0, 1]) (by decide +kernel)

def port8443 : PortText where
  text := "8443".toList
  number := 8443
  reads := by decide +kernel

end Name

namespace Surroundings

/-- Its well-known file names this server, and there are no records but one
address for every name. -/
def delegating (delegated : Name) : Surroundings where
  serverName := "arcana.example".toList
  federationLoopback := false
  cidrRangeDenylist :=
    [fun ip => ip == .v6 (.ofGroups [0, 0, 0, 0, 0, 0, 0, 1]),
      fun ip => ip == .v4 ⟨127, 0, 0, 1⟩]
  running := fun _ => true
  now := 1000
  destExpire := 100000
  overrideExpire := 40000
  host := fun text =>
    if text.head? = some '[' then text.takeWhile (fun char => char ≠ ']') ++ [']']
    else text.takeWhile (fun char => char ≠ ':')
  isIpLiteral := fun text => text.head? = some '[' ||
    (readIpv4Addr.whole (text.takeWhile (fun char => char ≠ ':'))).isSome
  validServerName := fun text => !text.isEmpty
  ipAddressIsValid := fun text => (parseIpAddr text).isSome
  ipAddressParse := fun text =>
    match parseIpAddr text with
    | some ip => .ok ip
    | none => .error "Unknown IP Address"
  wellKnown := fun _ => some {
    isSuccess := true
    limitReadText := some ("\x7b\"m.server\":\"".toList ++ delegated.text ++
      "\"\x7d".toList) }
  mServer := fun body => (body.drop 13).takeWhile (fun char => char ≠ '"')
  srvLookup := fun _ => .error .noRecordsFound
  lookupIp := fun _ => .ok [.v4 ⟨203, 0, 113, 7⟩]

end Surroundings

/-- The destination of a resolution has the host and the port of the name that
decides, unless that name is misread. -/
theorem resolveActualDest_follows_iff {surroundings : Surroundings}
    {cached after : Cache} {cache : Bool} {dest name : Name}
    {result : CachedDest} (decides : Name.Decides surroundings dest name)
    (resolved : surroundings.resolveActualDest cached dest.text cache =
      .ok (result, after)) :
    name.Followed surroundings result.dest ↔ ¬name.Misread := by
  have placed := Surroundings.resolveActualDest_placed resolved
  rw [decides.decidingName] at placed
  exact Name.followed_iff placed

theorem delegatedPort_follows :
    let name : Name := ⟨Name.loopback, some Name.port8443⟩
    let result : CachedDest := {
      dest := .literal (.v6 (.ofGroups [0, 0, 0, 0, 0, 0, 0, 1]) 0 8443)
      host := "[::1]:8443".toList
      expire := 100000 }
    (Surroundings.delegating name).resolveActualDest empty
        Name.matrixOrg.text true = .ok (result, empty) ∧
      name.Followed (.delegating name) result.dest := by
  have resolved : (Surroundings.delegating
      ⟨Name.loopback, some Name.port8443⟩).resolveActualDest empty
        Name.matrixOrg.text true = .ok (_, empty) := rfl
  exact ⟨resolved, (resolveActualDest_follows_iff
    (.delegated rfl rfl (by decide +kernel)) resolved).mpr (by decide)⟩

/-- A delegated address without a port is split at the colon behind the
bracket. -/
theorem bareIpv6_misread :
    ¬∀ (surroundings : Surroundings) (cached after : Cache) (cache : Bool)
      (dest name : Name) (result : CachedDest),
      Name.Decides surroundings dest name →
      surroundings.resolveActualDest cached dest.text cache =
        .ok (result, after) →
      name.Followed surroundings result.dest := by
  intro followed
  have misread := followed (.delegating ⟨Name.loopback, none⟩) empty _
    true Name.matrixOrg ⟨Name.loopback, none⟩ _
    (.delegated rfl rfl (by decide +kernel)) rfl
  exact absurd misread.host (by decide)

def Cache.Agrees (cached : Cache) (dest : FedDest) : Prop :=
  ∀ entry, cached.overrides.lookup dest.hostname = some entry →
    dest.port = some entry.port

namespace Surroundings

/-- The port behind the colon is read with the colon, and so not at all: the
override gets the default port, whatever the destination has. -/
structure LosesPort (surroundings : Surroundings) (name host port : Text) :
    Prop where
  unread : getIpWithPort name = none
  parts : splitAtColon name = some (host, port)
  fits : byteLength port ≤ 16
  other : parseU16 (port.drop 1) ≠ some 8448
  found : (surroundings.lookupIp host).isOk = true

variable {surroundings : Surroundings} {cached after : Cache} {cache : Bool}

theorem storedPort (empty : cached.overrides = ∅)
    {untername hostname : Text} {port : Port}
    (stored : surroundings.conditionalQueryAndCacheOverride cached untername
      hostname port cache = .ok after) :
    (after.overrides.lookup untername).map CachedOverride.port =
      if cache && (surroundings.lookupIp hostname).isOk then some port
      else none := by
  have nothing : cached.overrides.lookup untername = none := by
    rw [empty]
    rfl
  unfold conditionalQueryAndCacheOverride at stored
  cases cache with
  | false =>
      cases stored
      rw [nothing]
      rfl
  | true =>
      have unknown : cached.hasOverride surroundings.now untername = false := by
        rw [hasOverride, nothing]
        rfl
      rw [unknown] at stored
      obtain ⟨_, _, queried⟩ := bind_eq_ok stored
      cases answer : surroundings.lookupIp hostname with
      | error failure =>
          rw [answer] at queried
          obtain ⟨_, _, same⟩ := bind_eq_ok queried
          cases same
          rw [nothing]
          rfl
      | ok ips =>
          rw [answer] at queried
          cases queried
          rw [setOverride, AList.lookup_insert]
          rfl

theorem agrees_of_port (empty : cached.overrides = ∅) {port : Port}
    {hostname host : Text} {suffix : PortString}
    (stored : surroundings.conditionalQueryAndCacheOverride cached host
      hostname port cache = .ok after)
    (same : (named host suffix).port = some port) :
    after.Agrees (.named host suffix) := by
  intro entry found
  have ports := storedPort empty stored
  rw [show after.overrides.lookup host = some entry from found] at ports
  split at ports
  · rw [same, ← ports]
    rfl
  · cases ports

theorem defaultPort_iff {host port : Text} :
    (named host (portOrDefault port)).port = some 8448 ↔
      ¬(byteLength port ≤ 16 ∧ parseU16 (port.drop 1) ≠ some 8448) := by
  unfold portOrDefault PortString.ofText
  split
  next fits =>
    change parseU16 (port.drop 1) = some 8448 ↔ _
    simp [fits]
  next long => simp [long, port_defaultPort host]

theorem agrees_split_iff (empty : cached.overrides = ∅)
    {name host port : Text} (unread : getIpWithPort name = none)
    (parts : splitAtColon name = some (host, port))
    (stored : surroundings.conditionalQueryAndCache cached host
      ((parseU16 port).getD 8448) cache = .ok after) :
    after.Agrees (.named host (portOrDefault port)) ↔
      ¬(cache = true ∧ surroundings.LosesPort name host port) := by
  obtain ⟨_, _, rest, colon⟩ := splitAtColon_eq_some parts
  have unparsed : parseU16 port = none := by
    have stops : (readNumber 65536 10 none true).StopsAt ':' :=
      readNumber_stopsAt (by decide)
    rw [colon, parseU16_unsigned (by simp), Reader.whole,
      stops.run_stop rfl]
  rw [unparsed, getD_none] at stored
  have ports := storedPort empty stored
  cases asked : cache && (surroundings.lookupIp host).isOk with
  | false =>
      rw [asked] at ports
      have nothing : after.overrides.lookup host = none :=
        map_eq_none_iff.mp ports
      apply iff_of_true
      · intro entry found
        rw [show after.overrides.lookup host = some entry from found] at nothing
        cases nothing
      · intro both
        rw [both.1, both.2.found] at asked
        cases asked
  | true =>
      rw [asked] at ports
      obtain ⟨entry, found, same⟩ := map_eq_some_iff.mp ports
      have agrees : after.Agrees (.named host (portOrDefault port)) ↔
          (named host (portOrDefault port)).port =
            some 8448 := by
        constructor
        · intro agrees
          rw [agrees entry found, same]
        · intro default other present
          rw [show after.overrides.lookup host = some other from present]
            at found
          cases found
          rw [default, same]
      obtain ⟨on, answered⟩ := Bool.and_eq_true_iff.mp asked
      rw [agrees, defaultPort_iff]
      constructor
      · exact fun other loses => other ⟨loses.2.fits, loses.2.other⟩
      · exact fun kept lost => kept ⟨on, {
          unread, parts, fits := lost.1, other := lost.2, found := answered }⟩

theorem agrees_iff (empty : cached.overrides = ∅) {name : Text}
    {actual : FedDest}
    (placed : surroundings.Placed cached cache name actual after) :
    after.Agrees actual ↔
      ¬(cache = true ∧ ∃ host port, surroundings.LosesPort name host port) := by
  cases placed with
  | literal reads =>
      apply iff_of_true
      · intro entry found
        rw [empty] at found
        cases found
      · intro ⟨_, host, port, loses⟩
        have unread := loses.unread
        rw [reads] at unread
        cases unread
  | split unread parts stored =>
      rw [agrees_split_iff empty unread parts stored]
      apply not_congr
      apply and_congr_right
      intro _
      constructor
      · exact fun loses => ⟨_, _, loses⟩
      · intro ⟨host, port, loses⟩
        have same := loses.parts
        rw [parts] at same
        cases same
        exact loses
  | record unread noPort applies stored =>
      apply iff_of_true
      · exact agrees_of_port empty stored (port_decimal _)
      · intro ⟨_, host, port, loses⟩
        have parts := loses.parts
        rw [noPort] at parts
        cases parts
  | bare unread noPort noRecord stored =>
      apply iff_of_true
      · exact agrees_of_port empty stored (port_defaultPort _)
      · intro ⟨_, host, port, loses⟩
        have parts := loses.parts
        rw [noPort] at parts
        cases parts

end Surroundings

/-- An override that a resolution with an empty cache stores has the port of
the destination, unless the name that decides loses its port. -/
theorem resolveActualDest_agrees_iff {surroundings : Surroundings}
    {cached after : Cache} {cache : Bool} {dest : Text} {result : CachedDest}
    (empty : cached.overrides = ∅)
    (resolved : surroundings.resolveActualDest cached dest cache =
      .ok (result, after)) :
    after.Agrees result.dest ↔
      ¬(cache = true ∧ ∃ host port, surroundings.LosesPort
        (surroundings.decidingName dest) host port) :=
  Surroundings.agrees_iff empty (Surroundings.resolveActualDest_placed resolved)

theorem defaultPort_agrees :
    let surroundings := Surroundings.delegating ⟨Name.loopback, none⟩
    let result : CachedDest := {
      dest := .named "matrix.org".toList
        (portOrDefault ":8448".toList)
      host := "matrix.org:8448".toList
      expire := 100000 }
    ∃ after, surroundings.resolveActualDest empty
        "matrix.org:8448".toList true = .ok (result, after) ∧
      after.Agrees result.dest := by
  have resolved : (Surroundings.delegating ⟨Name.loopback, none⟩
      ).resolveActualDest empty "matrix.org:8448".toList true =
        .ok (_, _) := rfl
  refine ⟨_, resolved, (resolveActualDest_agrees_iff rfl resolved).mpr ?_⟩
  intro ⟨_, host, port, loses⟩
  have parts := loses.parts
  cases parts
  exact loses.other (by decide +kernel)

theorem alternatePort_disagrees :
    ¬∀ (surroundings : Surroundings) (cached after : Cache) (cache : Bool)
      (dest : Text) (result : CachedDest), cached.overrides = ∅ →
      surroundings.resolveActualDest cached dest cache = .ok (result, after) →
      after.Agrees result.dest := by
  intro agrees
  have same := agrees (.delegating ⟨Name.loopback, none⟩) empty _ true
    "matrix.org:8080".toList _ rfl rfl _ rfl
  revert same
  decide +kernel

end ArcanaServer.Resolver
