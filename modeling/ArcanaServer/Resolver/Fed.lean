import ArcanaServer.Library.EntryTable
import ArcanaServer.Resolver.NetAddr
import Mathlib.Algebra.GroupWithZero.Nat
import Mathlib.Data.List.DropRight

namespace ArcanaServer.Resolver

open Library List

def byteLength (text : Text) : Nat := (text.map Char.utf8Size).sum

/-- An `ArrayString<16>`. -/
structure PortString where
  text : Text
  fits : byteLength text ≤ 16
  deriving DecidableEq

def PortString.ofText (text : Text) : Option PortString :=
  if fits : byteLength text ≤ 16 then some ⟨text, fits⟩ else none

inductive FedDest where
  | literal (addr : SocketAddr)
  | named (host : Text) (port : PortString)
  deriving DecidableEq

namespace FedDest

def defaultPort : PortString where
  text := ":8448".toList
  fits := by decide

def portOrDefault (text : Text) : PortString :=
  (PortString.ofText text).getD defaultPort

def httpsString : FedDest → Text
  | .literal addr => "https://".toList ++ addr.toText
  | .named host port => "https://".toList ++ host ++ port.text

def uriString : FedDest → Text
  | .literal addr => addr.toText
  | .named host port => host ++ port.text

def hostname : FedDest → Text
  | .literal addr => addr.ip.toText
  | .named host _ => host

def port : FedDest → Option Port
  | .literal addr => some addr.port
  | .named _ port => parseU16 (port.text.drop 1)

end FedDest

/-- `find(':')` and `split_at`: the colon stays with the second part. -/
def splitAtColon (text : Text) : Option (Text × Text) :=
  if ':' ∈ text then
    some (text.takeWhile (fun char => char ≠ ':'),
      text.dropWhile (fun char => char ≠ ':'))
  else none

def getIpWithPort (destStr : Text) : Option FedDest :=
  match parseSocketAddr destStr with
  | some dest => some (.literal dest)
  | none =>
      match parseIpAddr destStr with
      | some ipAddr => some (.literal (.new ipAddr 8448))
      | none => none

def addPortToHostname (dest : Text) : FedDest :=
  match splitAtColon dest with
  | none => .named dest FedDest.defaultPort
  | some (host, port) => .named host (FedDest.portOrDefault port)

example : getIpWithPort "dead:beef::".toList =
    (parseSocketAddr "[dead:beef::]:8448".toList).map .literal := by
  decide +kernel

example : addPortToHostname "example.com:1337".toList =
    .named "example.com".toList (FedDest.portOrDefault ":1337".toList) := by
  decide +kernel

theorem byteLength_of_isDigit {digits : Text}
    (isDigit : ∀ char ∈ digits, char.isDigit = true) :
    byteLength digits = digits.length := by
  induction digits with
  | nil => rfl
  | cons char rest ih =>
      have one : char.utf8Size = 1 := by
        have upper : char.toNat ≤ '9'.toNat := by
          have digit := isDigit char mem_cons_self
          simp only [Char.isDigit, Bool.and_eq_true, decide_eq_true_eq] at digit
          exact digit.2
        rw [Char.utf8Size_eq_one_iff]
        exact Nat.le_trans upper (by decide)
      have later := ih (fun other member =>
        isDigit other (mem_cons_of_mem _ member))
      simp only [byteLength, map_cons, sum_cons] at later ⊢
      rw [one, later, length_cons, Nat.add_comm]

namespace FedDest

theorem portOrDefault_decimal (port : Port) :
    (portOrDefault (':' :: decimal port)).text = ':' :: decimal port := by
  have short : (decimal port).length ≤ 5 := by
    rw [decimal, Nat.length_toDigits_le_iff (by decide) (by decide)]
    exact Nat.lt_trans port.isLt (by decide)
  have fits : byteLength (':' :: decimal port) ≤ 16 := by
    have digits : byteLength (decimal port) = (decimal port).length :=
      byteLength_of_isDigit (fun char member => isDigit_decimal member)
    have colon : byteLength (':' :: decimal port) =
        1 + byteLength (decimal port) := rfl
    omega
  rw [portOrDefault, PortString.ofText, dif_pos fits]
  rfl

theorem port_decimal {host : Text} (port : Port) :
    (FedDest.named host (FedDest.portOrDefault (':' :: decimal port))).port =
      some port := by
  rw [FedDest.port, portOrDefault_decimal]
  exact parseU16_decimal port

theorem port_defaultPort (host : Text) :
    (named host defaultPort).port = some 8448 := by
  rw [port]
  decide +kernel

end FedDest

section

variable {text host port : Text}

theorem splitAtColon_eq_none : splitAtColon text = none ↔ ':' ∉ text := by
  simp [splitAtColon]

theorem splitAtColon_append (noColon : ':' ∉ host) :
    splitAtColon (host ++ ':' :: port) = some (host, ':' :: port) := by
  have differs : ∀ char ∈ host, decide (char ≠ ':') = true := by
    intro char member
    apply decide_eq_true
    intro same
    exact noColon (same ▸ member)
  rw [splitAtColon, if_pos (by simp),
    takeWhile_append_of_pos differs, dropWhile_append_of_pos differs]
  simp

theorem splitAtColon_eq_some (split : splitAtColon text = some (host, port)) :
    text = host ++ port ∧ ':' ∉ host ∧ ∃ rest, port = ':' :: rest := by
  rw [splitAtColon] at split
  split at split
  next contains =>
    obtain ⟨rfl, rfl⟩ : text.takeWhile (fun char => char ≠ ':') = host ∧
        text.dropWhile (fun char => char ≠ ':') = port := by
      simpa using split
    refine ⟨takeWhile_append_dropWhile.symm, ?_, ?_⟩
    · intro member
      simpa using mem_takeWhile_imp member
    · cases left : text.dropWhile (fun char => char ≠ ':') with
      | nil =>
          have all := dropWhile_eq_nil_iff.mp left ':' contains
          simp at all
      | cons first rest =>
          have stops := head?_dropWhile_not
            (fun char => decide (char ≠ ':')) text
          rw [left] at stops
          have same : first = ':' := by simpa using stops
          exact ⟨rest, by rw [same]⟩
  · cases split

end

structure CachedDest where
  dest : FedDest
  host : Text
  expire : Nat
  deriving DecidableEq

structure CachedOverride where
  ips : List IpAddr
  port : Port
  expire : Nat
  overriding : Option Text
  deriving DecidableEq

def CachedDest.valid (cached : CachedDest) (now : Nat) : Bool :=
  now < cached.expire

def CachedOverride.valid (cached : CachedOverride) (now : Nat) : Bool :=
  now < cached.expire

def maxIps : Nat := 3

structure Cache where
  destinations : EntryTable Text CachedDest
  overrides : EntryTable Text CachedOverride

namespace Cache

def empty : Cache where
  destinations := ∅
  overrides := ∅

def setDestination (cache : Cache) (name : Text) (dest : CachedDest) : Cache :=
  { cache with destinations := cache.destinations.insert name dest }

def setOverride (cache : Cache) (name : Text) (entry : CachedOverride) :
    Cache :=
  { cache with overrides := cache.overrides.insert name entry }

def getDestination (cache : Cache) (now : Nat) (name : Text) :
    Option CachedDest :=
  (cache.destinations.lookup name).filter (fun cached => cached.valid now)

def hasOverride (cache : Cache) (now : Nat) (destination : Text) : Bool :=
  (cache.overrides.lookup destination).any (fun cached => cached.valid now)

end Cache

inductive ResolverError where
  | err (message : String)
  | badServerResponse (message : String)
  | interrupted (message : String)
  deriving DecidableEq, Repr

/-- How a DNS query fails, with the text of the failure. -/
inductive ResolveErrorKind where
  | noRecordsFound
  | timeout (text : String)
  | noConnections (text : String)
  | other (text : String)
  deriving DecidableEq, Repr

structure SrvRecord where
  target : Text
  port : Port
  deriving DecidableEq

def trimEndMatches (char : Char) (text : Text) : Text :=
  text.rdropWhile (fun last => last = char)

def SrvRecord.overrider (record : SrvRecord) : FedDest :=
  .named (trimEndMatches '.' record.target)
    (FedDest.portOrDefault (':' :: decimal record.port))

def srvHostnames (hostname : Text) : List Text :=
  ["_matrix-fed._tcp.".toList ++ hostname ++ ['.'],
    "_matrix._tcp.".toList ++ hostname ++ ['.']]

structure WellKnownResponse where
  isSuccess : Bool
  limitReadText : Option Text

/-- The calls of `check_running`. -/
inductive CallSite where
  | wellKnown
  | srv (hostname : Text)
  | address
  | prepare
  deriving DecidableEq

/-- What the configuration, the time, other crates and other servers say while
a name is resolved.  `host` and `isIpLiteral` belong to the type of server
names, `mServer` is what the JSON body of a well-known response has under
`m.server`. -/
structure Surroundings where
  serverName : Text
  federationLoopback : Bool
  cidrRangeDenylist : List (IpAddr → Bool)
  running : CallSite → Bool
  now : Nat
  destExpire : Nat
  overrideExpire : Nat
  host : Text → Text
  isIpLiteral : Text → Bool
  validServerName : Text → Bool
  ipAddressIsValid : Text → Bool
  ipAddressParse : Text → Except String IpAddr
  wellKnown : Text → Option WellKnownResponse
  mServer : Text → Text
  srvLookup : Text → Except ResolveErrorKind (List SrvRecord)
  lookupIp : Text → Except ResolveErrorKind (List IpAddr)

namespace Surroundings

variable (surroundings : Surroundings)

def checkRunning (site : CallSite) : Except ResolverError Unit :=
  if surroundings.running site then .ok ()
  else .error (.interrupted "Server shutting down")

def validCidrRange (ip : IpAddr) : Bool :=
  surroundings.cidrRangeDenylist.all (fun includes => !includes ip)

def validateIp (ip : IpAddr) : Except ResolverError Unit :=
  if surroundings.validCidrRange ip then .ok ()
  else .error (.badServerResponse "Not allowed to send requests to this IP")

def validateDestIpLiteral (dest : Text) : Except ResolverError Unit :=
  match surroundings.ipAddressParse (surroundings.host dest) with
  | .error failure => .error (.badServerResponse
      ("Failed to parse IP literal from string: " ++ failure))
  | .ok ip => surroundings.validateIp ip

def validateDest (dest : Text) : Except ResolverError Unit :=
  if dest = surroundings.serverName ∧
      surroundings.federationLoopback = false then
    .error (.err "Won't send federation request to ourselves")
  else if surroundings.isIpLiteral dest ||
      surroundings.ipAddressIsValid (surroundings.host dest) then
    surroundings.validateDestIpLiteral dest
  else .ok ()

def requestWellKnown (dest : Text) : Option Text :=
  match surroundings.wellKnown dest with
  | none => none
  | some response =>
      if !response.isSuccess then none
      else
        match response.limitReadText with
        | none => none
        | some text =>
            let mServer := surroundings.mServer text
            if surroundings.validServerName mServer then some mServer
            else none

def handleResolveError : ResolveErrorKind → Except ResolverError Unit
  | .noRecordsFound => .ok ()
  | .timeout text => .error (.err ("DNS " ++ text))
  | .noConnections text => .error (.err ("DNS error: " ++ text))
  | .other text => .error (.err ("DNS error: " ++ text))

def querySrvRecords : List Text → Except ResolverError (Option FedDest)
  | [] => .ok none
  | hostname :: rest => do
      surroundings.checkRunning (.srv hostname)
      match surroundings.srvLookup (trimEndMatches '.' hostname) with
      | .error failure =>
          handleResolveError failure
          querySrvRecords rest
      | .ok result => .ok (result.head?.map SrvRecord.overrider)

def querySrvRecord (hostname : Text) :
    Except ResolverError (Option FedDest) :=
  surroundings.querySrvRecords (srvHostnames hostname)

variable (cached : Cache) (untername hostname : Text) (port : Port)

def queryAndCacheOverride : Except ResolverError Cache := do
  surroundings.checkRunning .address
  match surroundings.lookupIp hostname with
  | .error failure =>
      handleResolveError failure
      .ok cached
  | .ok overrideIp =>
      .ok (cached.setOverride untername {
        ips := overrideIp.take maxIps
        port
        expire := surroundings.overrideExpire
        overriding := if hostname ≠ untername then some hostname else none })

def conditionalQueryAndCacheOverride (cache : Bool) :
    Except ResolverError Cache :=
  if !cache then .ok cached
  else if cached.hasOverride surroundings.now untername then .ok cached
  else surroundings.queryAndCacheOverride cached untername hostname port

def conditionalQueryAndCache (cached : Cache) (hostname : Text) (port : Port)
    (cache : Bool) : Except ResolverError Cache :=
  surroundings.conditionalQueryAndCacheOverride cached hostname hostname port
    cache

def actualDest1 (cached : Cache) (hostPort : FedDest) :
    Except ResolverError (FedDest × Cache) :=
  .ok (hostPort, cached)

variable (cached : Cache) (cache : Bool)

def actualDest2 (host port : Text) :
    Except ResolverError (FedDest × Cache) := do
  let cached ← surroundings.conditionalQueryAndCache cached host
    ((parseU16 port).getD 8448) cache
  .ok (.named host (FedDest.portOrDefault port), cached)

def actualDest31 (hostAndPort : FedDest) :
    Except ResolverError (FedDest × Cache) :=
  .ok (hostAndPort, cached)

def actualDest32 (host port : Text) :
    Except ResolverError (FedDest × Cache) := do
  let cached ← surroundings.conditionalQueryAndCache cached host
    ((parseU16 port).getD 8448) cache
  .ok (.named host (FedDest.portOrDefault port), cached)

def actualDest33 (delegated : Text) (overrider : FedDest) :
    Except ResolverError (FedDest × Cache) := do
  let forcePort := overrider.port
  let cached ← surroundings.conditionalQueryAndCacheOverride cached delegated
    overrider.hostname (forcePort.getD 8448) cache
  match forcePort with
  | some port => .ok (.named delegated
      (FedDest.portOrDefault (':' :: decimal port)), cached)
  | none => .ok (addPortToHostname delegated, cached)

def actualDest34 (delegated : Text) :
    Except ResolverError (FedDest × Cache) := do
  let cached ← surroundings.conditionalQueryAndCache cached delegated 8448 cache
  .ok (addPortToHostname delegated, cached)

def actualDest3 (delegated : Text) : Except ResolverError (FedDest × Cache) :=
  match getIpWithPort delegated with
  | some hostAndPort => actualDest31 cached hostAndPort
  | none =>
      match splitAtColon delegated with
      | some (host, port) => surroundings.actualDest32 cached cache host port
      | none => do
          match ← surroundings.querySrvRecord delegated with
          | some overrider =>
              surroundings.actualDest33 cached cache delegated overrider
          | none => surroundings.actualDest34 cached cache delegated

def actualDest4 (host : Text) (overrider : FedDest) :
    Except ResolverError (FedDest × Cache) := do
  let forcePort := overrider.port
  let cached ← surroundings.conditionalQueryAndCacheOverride cached host
    overrider.hostname (forcePort.getD 8448) cache
  match forcePort with
  | some port => .ok (.named host
      (FedDest.portOrDefault (':' :: decimal port)), cached)
  | none => .ok (addPortToHostname host, cached)

def actualDest5 (dest : Text) : Except ResolverError (FedDest × Cache) := do
  let cached ← surroundings.conditionalQueryAndCache cached dest 8448 cache
  .ok (addPortToHostname dest, cached)

def chooseDest (dest : Text) : Except ResolverError (FedDest × Text × Cache) :=
  match getIpWithPort dest with
  | some hostPort => do
      let (actual, cached) ← actualDest1 cached hostPort
      .ok (actual, dest, cached)
  | none =>
      match splitAtColon dest with
      | some (host, port) => do
          let (actual, cached) ← surroundings.actualDest2 cached cache host port
          .ok (actual, dest, cached)
      | none => do
          surroundings.checkRunning .wellKnown
          match surroundings.requestWellKnown dest with
          | some delegated =>
              let (actual, cached) ←
                surroundings.actualDest3 cached cache delegated
              .ok (actual, (addPortToHostname delegated).uriString, cached)
          | none =>
              match ← surroundings.querySrvRecord dest with
              | some overrider =>
                  let (actual, cached) ←
                    surroundings.actualDest4 cached cache dest overrider
                  .ok (actual, dest, cached)
              | none =>
                  let (actual, cached) ←
                    surroundings.actualDest5 cached cache dest
                  .ok (actual, dest, cached)

/-- Unlike `getIpWithPort`, this adds no port to an IP address without one. -/
def hostHeader (host : Text) : FedDest :=
  match parseSocketAddr host with
  | some addr => .literal addr
  | none =>
      match parseIpAddr host with
      | some addr => .named addr.toText FedDest.defaultPort
      | none =>
          match splitAtColon host with
          | some (host, port) => .named host (FedDest.portOrDefault port)
          | none => .named host FedDest.defaultPort

def resolveActualDest (cached : Cache) (dest : Text) (cache : Bool) :
    Except ResolverError (CachedDest × Cache) := do
  surroundings.validateDest dest
  let (actual, host, cached) ← surroundings.chooseDest cached cache dest
  .ok ({ dest := actual
         host := (hostHeader host).uriString
         expire := surroundings.destExpire }, cached)

end Surroundings

end ArcanaServer.Resolver
