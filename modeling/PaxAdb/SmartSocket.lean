import PaxAdb.SocketOps

/-!
# Enqueue and ready callbacks, trackers and smart sockets

A smart socket collects the first bytes a client sends until they form a request, and then replaces
itself: by a host service, by a transport for the next request, or by a connection to the device
that is completed when the device answers.
-/

namespace PaxAdb.Sockets

inductive TransportKind where
  | kTransportUsb
  | kTransportLocal
  | kTransportAny
  deriving DecidableEq, Repr

structure HostRequest where
  service : List Byte
  ttype : TransportKind
  serial : Option (List Byte)
  deriving DecidableEq, Repr

structure Env where
  /-- `acquire_one_transport` for a `transport` request -/
  acquireOneTransport : HostRequest → Option TransportId
  /-- `handle_host_request` has dealt with the request -/
  handleHostRequest : HostRequest → Bool
  /-- what `handle_host_request` writes to the client -/
  hostReply : HostRequest → List Byte
  /-- `service_to_fd` has a descriptor for a service of this name -/
  serviceToFd : List Byte → Bool
  /-- the output of `list_transports` -/
  transports : List Byte
  /-- the connection string of a device -/
  banner : List Byte
  /-- the packet payloads the authentication code produces -/
  authResponse : Option (List Byte)
  authPublicKey : Option (List Byte)
  authToken : Option (List Byte)
  authVerify : Bool
  /-- `adb_auth_nextkey` has another key -/
  authNextKey : Bool

def unhexDigit (c : Byte) : Option ℕ :=
  if 0x30 ≤ c ∧ c ≤ 0x39 then some (c.toNat - 0x30)
  else if 0x61 ≤ c ∧ c ≤ 0x66 then some (c.toNat - 0x61 + 10)
  else if 0x41 ≤ c ∧ c ≤ 0x46 then some (c.toNat - 0x41 + 10)
  else none

def unhexLoop : ℕ → List Byte → ℕ
  | n, [] => n
  | n, c :: s =>
      match unhexDigit c with
      | some d => unhexLoop ((n * 16 + d) % 2 ^ 32) s
      | none => 0xffffffff

def unhex (s : List Byte) : ℕ := unhexLoop 0 s

def serialPrefixes : List (List Byte) :=
  [text "usb:", text "product:", text "model:", text "device:"]

def skipHostSerial (service : List Byte) : Option ℕ :=
  match serialPrefixes.find? (·.isPrefixOf service) with
  | some pre => ((service.drop pre.length).findIdx? (· = 0x3a)).map (· + pre.length)
  | none =>
      (service.findIdx? (· = 0x3a)).map (fun i =>
        let digits := (service.drop (i + 1)).takeWhile (fun c => 0x30 ≤ c ∧ c ≤ 0x39)
        let j := i + 1 + digits.length
        if digits ≠ [] ∧ service[j]? = some 0x3a then j else i)

def parseHostRequest (service : List Byte) : Option HostRequest :=
  if (text "host-serial:").isPrefixOf service then
    let service := service.drop (text "host-serial:").length
    match skipHostSerial service with
    | some i => some ⟨service.drop (i + 1), .kTransportAny, some (service.take i)⟩
    | none => some ⟨service, .kTransportAny, none⟩
  else if (text "host-usb:").isPrefixOf service then
    some ⟨service.drop (text "host-usb:").length, .kTransportUsb, none⟩
  else if (text "host-local:").isPrefixOf service then
    some ⟨service.drop (text "host-local:").length, .kTransportLocal, none⟩
  else if (text "host:").isPrefixOf service then
    some ⟨service.drop (text "host:").length, .kTransportAny, none⟩
  else none

inductive HostService where
  | tracker
  | localSocket
  | unknown
  deriving DecidableEq, Repr

def hostServiceKind (name : List Byte) : HostService :=
  if name = text "track-devices" then .tracker
  else if (text "wait-for-").isPrefixOf name then
    let name := name.drop (text "wait-for-").length
    if (text "local").isPrefixOf name ∨ (text "usb").isPrefixOf name ∨
        (text "any").isPrefixOf name then .localSocket
    else .unknown
  else if (text "connect:").isPrefixOf name then .localSocket
  else .unknown

def listTransportsMsg (env : Env) : List Byte :=
  Server.hex4 env.transports.length ++ env.transports

section Callbacks

variable (env : Env)

def localSocketEnqueue (a : Addr) (p : List Byte) (w : Server) : Except Fault (Server × ℤ) := do
  let s ← w.get a
  if s.queue ≠ [] then
    let w ← (w.store a { s with queue := s.queue ++ [p] }).fdeventAdd a .fdeWrite
    return (w, 1)
  let (rest, writes, outcome) := writeLoop false w.writes p
  let w := { w.wrote a .data (p.take (p.length - rest.length)) with writes := writes }
  match outcome with
  | .failed => do
      let w ← (w.setTrace a { w.trace a with failed := true }).close a
      return (w, 1)
  | .done => return (w, 0)
  | .blocked => do
      let w ← (w.store a { s with queue := [rest] }).fdeventAdd a .fdeWrite
      return (w, 1)

def remoteSocketEnqueue (a : Addr) (p : List Byte) (w : Server) : Except Fault (Server × ℤ) := do
  let s ← w.get a
  match s.peer, s.transport with
  | none, _ => .error .nullPointer
  | _, none => .error .exit
  | some b, some t => do
      let q ← w.get b
      return (w.sendPacket ⟨.aWrte, q.id, s.id, p⟩ t, 1)

def remoteSocketReady (a : Addr) (w : Server) : Except Fault Server := do
  let s ← w.get a
  match s.peer, s.transport with
  | none, _ => .error .nullPointer
  | _, none => .error .exit
  | some b, some t => do
      let q ← w.get b
      return (w.acknowledge b).sendPacket ⟨.aOkay, q.id, s.id, []⟩ t

def deviceTrackerEnqueue (a : Addr) (w : Server) : Except Fault (Server × ℤ) := do
  let w ← w.close a
  return (w, -1)

abbrev Enqueue := Addr → List Byte → Server → Except Fault (Server × ℤ)

def deviceTrackerSend (enqueue : Enqueue) (a : Addr) (buffer : List Byte) (w : Server) :
    Except Fault (Server × ℤ) := do
  let s ← w.get a
  match s.peer with
  | none => .error .nullPointer
  | some p => enqueue p buffer w

def deviceTrackerReady (enqueue : Enqueue) (a : Addr) (w : Server) : Except Fault Server := do
  let s ← w.get a
  if s.updateNeeded then
    let (w, _) ← deviceTrackerSend enqueue a (listTransportsMsg env)
      (w.store a { s with updateNeeded := false })
    return w
  return w

def callReady (enqueue : Enqueue) (a : Addr) (w : Server) : Except Fault Server := do
  let s ← w.get a
  match s.ready with
  | .localSocketReady => w.fdeventAdd a .fdeRead
  | .localSocketReadyNotify =>
      ((w.store a s.plain).writeStatus a (text "OKAY")).fdeventAdd a .fdeRead
  | .remoteSocketReady => remoteSocketReady a w
  | .smartSocketReady => return w
  | .deviceTrackerReady => deviceTrackerReady env enqueue a w

def createDeviceTracker (w : Server) : Server × Addr :=
  let a := w.nextAddr
  let s : ASocket :=
    { id := 0, closing := false, peer := none, fde := ⟨.none, .none, false, false⟩, queue := [],
      enqueue := .deviceTrackerEnqueue, ready := .deviceTrackerReady, shutdown := none,
      close := .deviceTrackerClose, transport := none, updateNeeded := true }
  ({ w.store a s with nextAddr := a + 1, deviceTrackerList := a :: w.deviceTrackerList }, a)

def smartSocketFail (a : Addr) (w : Server) : Except Fault (Server × ℤ) := do
  let w ← w.close a
  return (w, -1)

def smartSocketBind (ready : Addr → Server → Except Fault Server) (a b s2 : Addr) (w : Server) :
    Except Fault (Server × ℤ) := do
  let q ← w.get b
  let w := (w.writeStatus b (text "OKAY")).store b { q.plain with peer := some s2 }
  let r ← w.get s2
  let w := w.store s2 { r with peer := some b }
  let s ← w.get a
  let w ← (w.store a { s with peer := none }).close a
  let w ← ready s2 w
  return (w, 0)

def smartSocketHost (ready : Addr → Server → Except Fault Server) (request : HostRequest)
    (a b : Addr) (w : Server) : Except Fault (Server × ℤ) := do
  let s ← w.get a
  if request.service = text "kill" then .error .exit
  else if (text "transport").isPrefixOf request.service then
    let w := match env.acquireOneTransport request with
      | some t => (w.store a { s with transport := some t, queue := [[]] }).writeStatus b
          (text "OKAY")
      | none => (w.store a { s with queue := [[]] }).sendfailmsg b (env.hostReply request)
    return (w, 0)
  else if env.handleHostRequest request then
    smartSocketFail a (w.writex b (env.hostReply request))
  else
    match hostServiceKind request.service with
    | .tracker =>
        let (w, s2) := createDeviceTracker w
        smartSocketBind ready a b s2 w
    | .localSocket =>
        let (w, s2) := w.createLocalSocket
        smartSocketBind ready a b s2 w
    | .unknown => smartSocketFail a (w.sendfailmsg b (text "unknown host service"))

def smartSocketRemote (destination : List Byte) (a b : Addr) (w : Server) :
    Except Fault (Server × ℤ) := do
  let s ← w.get a
  match s.transport with
  | none => smartSocketFail a (w.sendfailmsg b (text "device offline (x)"))
  | some t =>
      if w.connectionState t = .offline then
        smartSocketFail a (w.sendfailmsg b (text "device offline (x)"))
      else do
        let q ← w.get b
        let w := w.store b { q with
          ready := .localSocketReadyNotify, shutdown := none, close := .localSocketCloseNotify
          peer := none, transport := some t }
        let w := w.sendPacket ⟨.aOpen, q.id, 0, destination ++ [0]⟩ t
        let w ← (w.store a { s with peer := none }).close a
        return (w, 1)

def smartSocketCollect (s : ASocket) (p : List Byte) : Option (List Byte) :=
  match s.queue with
  | [] => some p
  | first :: _ => if first.length + p.length > MAX_PAYLOAD then none else some (first ++ p)

def smartSocketEnqueue (ready : Addr → Server → Except Fault Server) (a : Addr) (p : List Byte)
    (w : Server) : Except Fault (Server × ℤ) := do
  let s ← w.get a
  match smartSocketCollect s p with
  | none => smartSocketFail a w
  | some bytes =>
      let w := w.store a { s with queue := [bytes] }
      let len := unhex (bytes.take 4)
      if bytes.length < 4 then return (w, 0)
      else if len < 1 ∨ len > 1024 then smartSocketFail a w
      else if len + 4 > bytes.length then return (w, 0)
      else
        let service := cString ((bytes.drop 4).take len)
        match s.peer with
        | none => .error .nullPointer
        | some b =>
            match parseHostRequest service with
            | some request => smartSocketHost env ready request a b w
            | none => smartSocketRemote service a b w

/-- `s->enqueue(s, p)`; the first argument bounds the depth of the calls. -/
def callEnqueue : ℕ → Enqueue
  | 0, _, _, _ => .error .stackOverflow
  | depth + 1, a, p, w => do
      let s ← w.get a
      match s.enqueue with
      | .localSocketEnqueue => localSocketEnqueue a p w
      | .remoteSocketEnqueue => remoteSocketEnqueue a p w
      | .deviceTrackerEnqueue => deviceTrackerEnqueue a w
      | .smartSocketEnqueue =>
          smartSocketEnqueue env (callReady env (callEnqueue depth)) a p w

/-- A smart socket may make a new tracker ready, which enqueues to a local socket. -/
def enqueueDepth : ℕ := 2

end Callbacks

end PaxAdb.Sockets
