import ArcanaServer.Globals.Counter
import ArcanaServer.Library.SortedTable
import ArcanaServer.Sending.Keys
import Mathlib.Logic.Function.Basic
import Mathlib.Order.Fin.Basic

namespace ArcanaServer.Sending

open Library

abbrev Rows := SortedTable Key (List Byte)
abbrev QueueItem := Key × SendingEvent
abbrev Request := SendingEvent × Destination

structure Tables where
  servercurrenteventData : Rows
  servernameeventData : Rows
  servernameEducount : OwnedServerName → Option Nat
  counter : Nat

def rowOf (item : QueueItem) : Key × List Byte := (item.1, item.2.value)

/-- The scans of the loop leave out a row that cannot be read, at which those of
the source panic. -/
def readRow (row : Key × List Byte) : Option (QueueItem × Destination) :=
  (parseServercurrentevent row.1 row.2).map
    (fun found => ((row.1, found.2), found.1))

namespace Tables

def deleteActiveRequest (tables : Tables) (key : Key) : Tables :=
  { tables with
    servercurrenteventData := tables.servercurrenteventData.erase key }

def deleteAllActiveRequestsFor (tables : Tables) (destination : Destination) :
    Tables :=
  { tables with
    servercurrenteventData :=
      tables.servercurrenteventData.erasePrefix destination.getPrefix }

def deleteAllRequestsFor (tables : Tables) (destination : Destination) :
    Tables :=
  { tables with
    servercurrenteventData :=
      tables.servercurrenteventData.erasePrefix destination.getPrefix
    servernameeventData :=
      tables.servernameeventData.erasePrefix destination.getPrefix }

def markAsActive (tables : Tables) (events : List QueueItem) : Tables :=
  let events := events.filter (fun event => !event.1.isEmpty)
  { tables with
    servercurrenteventData :=
      tables.servercurrenteventData.putAll (events.map rowOf)
    servernameeventData :=
      tables.servernameeventData.eraseAll (events.map Prod.fst) }

def activeRequests (tables : Tables) : List (QueueItem × Destination) :=
  tables.servercurrenteventData.rows.filterMap readRow

def activeRequestsFor (tables : Tables) (destination : Destination) :
    List QueueItem :=
  (tables.servercurrenteventData.scanPrefix destination.getPrefix).filterMap
    (fun row => (readRow row).map Prod.fst)

def nextCount (tables : Tables) : Nat × Tables :=
  let count := nextCounter tables.counter
  (count, { tables with counter := count })

theorem nextCount_fresh {tables : Tables}
    (room : tables.counter + 1 < 2 ^ 64) :
    tables.nextCount =
      (tables.counter + 1, { tables with counter := tables.counter + 1 }) := by
  rw [nextCount, nextCounter_of_lt (by rw [u64Max]; omega)]

def requestKey (tables : Tables) : Request → Key × Tables
  | (.pdu value, dest) => (dest.getPrefix ++ value.bytes, tables)
  | (_, dest) =>
      let (count, tables) := tables.nextCount
      (dest.getPrefix ++ toBeBytes count, tables)

def requestKeys (tables : Tables) : List Request → List Key × Tables
  | [] => ([], tables)
  | request :: rest =>
      let (key, tables) := tables.requestKey request
      let (keys, tables) := tables.requestKeys rest
      (key :: keys, tables)

def queueRequests (tables : Tables) (requests : List Request) :
    List Key × Tables :=
  let (keys, tables) := tables.requestKeys requests
  (keys, { tables with
    servernameeventData := tables.servernameeventData.putAll
      ((keys.zip (requests.map Prod.fst)).map rowOf) })

def queuedRequests (tables : Tables) (destination : Destination) :
    List QueueItem :=
  (tables.servernameeventData.scanPrefix destination.getPrefix).filterMap
    (fun row => (readRow row).map Prod.fst)

def setLatestEducount (tables : Tables) (serverName : OwnedServerName)
    (lastCount : Nat) : Tables :=
  { tables with
    servernameEducount :=
      Function.update tables.servernameEducount serverName (some lastCount) }

def getLatestEducount (tables : Tables) (serverName : OwnedServerName) : Nat :=
  (tables.servernameEducount serverName).getD 0

theorem getLatestEducount_set (tables : Tables)
    (serverName other : OwnedServerName) (lastCount : Nat) :
    (tables.setLatestEducount serverName lastCount).getLatestEducount other =
      if other = serverName then lastCount
      else tables.getLatestEducount other := by
  unfold setLatestEducount getLatestEducount
  simp only [Function.update_apply]
  split
  · rfl
  · rfl

end Tables

def noTables : Tables where
  servercurrenteventData := .empty
  servernameeventData := .empty
  servernameEducount _ := none
  counter := 0

/-! The loop of the sender.  Every destination has one worker, so the workers
are taken together.  A handler runs to its end before the loop goes on; the
messages and the responses may come in any order. -/

inductive TransactionStatus where
  | running
  | failed (tries time : Nat)
  | retrying (tries : Nat)
  deriving DecidableEq, Repr

abbrev CurTransactionStatus := Destination → Option TransactionStatus

structure SenderConfig where
  senderTimeout : Nat
  senderRetryBackoffLimit : Nat
  startupNetburst : Bool
  startupNetburstKeep : Int

structure Msg where
  dest : Destination
  event : SendingEvent
  queueId : Key

/-- A future of `send_events`.  The keys of the rows are kept beside the events;
they are empty for EDUs that are not from a row. -/
structure Transaction where
  dest : Destination
  events : List QueueItem

/-- `waiting` are the messages in the channels and those not yet dispatched,
`now` is in nanoseconds, and a server that is stopping takes no messages. -/
structure SenderWorld where
  config : SenderConfig
  tables : Tables
  waiting : List Msg
  statuses : CurTransactionStatus
  futures : List Transaction
  now : Nat
  stopping : Bool

def dequeueLimit : Nat := 48

def fromSecs (seconds : Nat) : Nat := seconds * 1000000000

def continueExponentialBackoff (min max elapsed tries : Nat) : Bool :=
  elapsed < Nat.min (min * tries * tries) max

def continueExponentialBackoffSecs (min max elapsed tries : Nat) : Bool :=
  continueExponentialBackoff (fromSecs min) (fromSecs max) elapsed tries

def saturatingAdd32 (first second : Nat) : Nat :=
  Nat.min (first + second) (2 ^ 32 - 1)

def isAppservice : Destination → Bool
  | .appservice _ => true
  | _ => false

namespace SenderWorld

variable (world : SenderWorld) (dest : Destination)

def setStatus (status : Option TransactionStatus) : SenderWorld :=
  { world with statuses := Function.update world.statuses dest status }

def sendEvents (events : List QueueItem) : SenderWorld :=
  { world with futures := world.futures ++ [⟨dest, events⟩] }

/-- The last case panics. -/
def handleResponseErr (world : SenderWorld) : Option SenderWorld :=
  match world.statuses dest with
  | none => some world
  | some .running => some (world.setStatus dest (some (.failed 1 world.now)))
  | some (.retrying tries) =>
      some (world.setStatus dest
        (some (.failed (saturatingAdd32 tries 1) world.now)))
  | some (.failed _ _) => none

def handleResponseOk (world : SenderWorld) : SenderWorld :=
  let world :=
    { world with tables := world.tables.deleteAllActiveRequestsFor dest }
  let newEvents := (world.tables.queuedRequests dest).take dequeueLimit
  if !newEvents.isEmpty then
    { world with tables := world.tables.markAsActive newEvents }.sendEvents
      dest newEvents
  else world.setStatus dest none

def selectEventsCurrent : (Bool × Bool) × SenderWorld :=
  match world.statuses dest with
  | some (.failed tries time) =>
      if continueExponentialBackoffSecs world.config.senderTimeout
          world.config.senderRetryBackoffLimit (world.now - time) tries &&
          !isAppservice dest then
        ((false, false), world)
      else ((true, true), world.setStatus dest (some (.retrying tries)))
  | some .running => ((false, false), world)
  | some (.retrying _) => ((false, false), world)
  | none => ((true, false), world.setStatus dest (some .running))

def selectEvents (newEvents : List QueueItem)
    (edus : Option (List EduBuf × Nat)) :
    Option (List QueueItem) × SenderWorld :=
  let ((allow, retry), world) := world.selectEventsCurrent dest
  if !allow then (none, world)
  else if retry then (some (world.tables.activeRequestsFor dest), world)
  else
    let world := { world with tables := world.tables.markAsActive newEvents }
    match dest, edus with
    | .federation serverName, some (selectEdus, lastCount) =>
        (some (newEvents ++ selectEdus.map (fun edu => ([], .edu edu))),
          { world with
            tables := world.tables.setLatestEducount serverName lastCount })
    | _, _ => (some newEvents, world)

def handleRequest (msg : Msg) (edus : Option (List EduBuf × Nat))
    (world : SenderWorld) : SenderWorld :=
  match world.selectEvents msg.dest [(msg.queueId, msg.event)] edus with
  | (some events, world) =>
      if !events.isEmpty then world.sendEvents msg.dest events
      else world.setStatus msg.dest none
  | (none, world) => world

structure Netburst where
  tables : Tables
  txns : Destination → List QueueItem

def Netburst.add (config : SenderConfig) (burst : Netburst)
    (row : QueueItem × Destination) : Netburst :=
  let entry := burst.txns row.2
  if 0 ≤ config.startupNetburstKeep ∧
      config.startupNetburstKeep.toNat ≤ entry.length then
    { burst with tables := burst.tables.deleteActiveRequest row.1.1 }
  else
    { burst with
      txns := Function.update burst.txns row.2 (entry ++ [row.1]) }

def burstTo (txns : Destination → List QueueItem) (world : SenderWorld)
    (dest : Destination) : SenderWorld :=
  if world.config.startupNetburst && !(txns dest).isEmpty then
    (world.setStatus dest (some .running)).sendEvents dest (txns dest)
  else world

def startupNetburst (world : SenderWorld) : SenderWorld :=
  let active := world.tables.activeRequests
  let burst := active.foldl (Netburst.add world.config)
    ⟨world.tables, fun _ => []⟩
  (active.map Prod.snd).dedup.foldl (burstTo burst.txns)
    { world with tables := burst.tables }

def boot (config : SenderConfig) (tables : Tables) (now : Nat) :
    SenderWorld :=
  startupNetburst {
    config
    tables
    waiting := []
    statuses := fun _ => none
    futures := []
    now
    stopping := false }

def dispatch (msgs : List Msg) (world : SenderWorld) : SenderWorld :=
  if world.stopping then world
  else { world with waiting := world.waiting ++ msgs }

def sendTo (event : SendingEvent) (dests : List Destination)
    (world : SenderWorld) : SenderWorld :=
  let (keys, tables) :=
    world.tables.queueRequests (dests.map (fun dest => (event, dest)))
  dispatch ((dests.zip keys).map
    (fun request => { dest := request.1, event, queueId := request.2 }))
    { world with tables }

def flushServers (servers : List OwnedServerName) (world : SenderWorld) :
    SenderWorld :=
  world.dispatch (servers.map (fun server => ⟨.federation server, .flush, []⟩))

def cleanupEvents (world : SenderWorld) :
    (appserviceId userId pushKey : Option Utf8) → SenderWorld
  | none, some userId, some pushKey =>
      { world with
        tables := world.tables.deleteAllRequestsFor (.push userId pushKey) }
  | some appserviceId, none, none =>
      { world with
        tables := world.tables.deleteAllRequestsFor (.appservice appserviceId) }
  | _, _, _ => world

end SenderWorld

inductive SenderAction where
  | sendPdu (id : RawPduId) (dests : List Destination)
  | sendEdu (buf : EduBuf) (dests : List Destination)
  | flushServers (servers : List OwnedServerName)
  | cleanupEvents (appserviceId userId pushKey : Option Utf8)
  | handleRequest (index : Nat) (edus : Option (List EduBuf × Nat))
  | handleResponse (index : Nat) (success : Bool)
  | wait (duration : Nat)
  | stop
  | finishResponse (index : Nat) (success : Bool)
  | restart (config : SenderConfig)

inductive SenderOutcome where
  | handled
  | panicked
  deriving DecidableEq, Repr

namespace SenderWorld

def take (world : SenderWorld) (index : Nat) : SenderWorld :=
  { world with futures := world.futures.eraseIdx index }

variable (txn : Transaction) (success : Bool) (world : SenderWorld)

def handleResponse : SenderWorld × SenderOutcome :=
  if success then (world.handleResponseOk txn.dest, .handled)
  else
    match world.handleResponseErr txn.dest with
    | some world => (world, .handled)
    | none => (world, .panicked)

def finishResponse : SenderWorld :=
  if success then
    { world with tables := world.tables.deleteAllActiveRequestsFor txn.dest }
  else world

def step (world : SenderWorld) : SenderAction → SenderWorld × SenderOutcome
  | .sendPdu id dests => (world.sendTo (.pdu id) dests, .handled)
  | .sendEdu buf dests => (world.sendTo (.edu buf) dests, .handled)
  | .flushServers servers => (world.flushServers servers, .handled)
  | .cleanupEvents appserviceId userId pushKey =>
      (world.cleanupEvents appserviceId userId pushKey, .handled)
  | .handleRequest index edus =>
      match world.stopping, world.waiting[index]? with
      | false, some msg =>
          ({ world with waiting := world.waiting.eraseIdx index }.handleRequest
            msg edus, .handled)
      | _, _ => (world, .handled)
  | .handleResponse index success =>
      match world.stopping, world.futures[index]? with
      | false, some txn => (world.take index).handleResponse txn success
      | _, _ => (world, .handled)
  | .wait duration => ({ world with now := world.now + duration }, .handled)
  | .stop => ({ world with stopping := true }, .handled)
  | .finishResponse index success =>
      match world.stopping, world.futures[index]? with
      | true, some txn =>
          ((world.take index).finishResponse txn success, .handled)
      | _, _ => (world, .handled)
  | .restart config => (boot config world.tables world.now, .handled)

def queuedItems (world : SenderWorld) (event : SendingEvent)
    (dests : List Destination) : List (Destination × QueueItem) :=
  (dests.zip (world.tables.queueRequests
    (dests.map (fun dest => (event, dest)))).1).map
      (fun request => (request.1, (request.2, event)))

def queuedBy (world : SenderWorld) :
    SenderAction → List (Destination × QueueItem)
  | .sendPdu id dests => queuedItems world (.pdu id) dests
  | .sendEdu buf dests => queuedItems world (.edu buf) dests
  | _ => []

inductive Answers (world : SenderWorld) (txn : Transaction) :
    SenderAction → Prop
  | responded (index : Nat) (going : world.stopping = false)
      (found : world.futures[index]? = some txn) :
      Answers world txn (.handleResponse index true)
  | finished (index : Nat) (stopped : world.stopping = true)
      (found : world.futures[index]? = some txn) :
      Answers world txn (.finishResponse index true)

end SenderWorld

end ArcanaServer.Sending
