import PaxAdb.SmartSocket

/-!
# Packets from a transport

`handle_packet` finds the local socket a packet is for by its numeric ids alone. Packets of the
connection set-up change the state of the transport, and with it may close the sockets that are
registered with it.
-/

namespace PaxAdb.Sockets

def A_VERSION : ℕ := 0x01000000

def PAX_HANDSHAKE_REQ : ℕ := 1

def PAX_HANDSHAKE_RES : ℕ := 2

def ADB_AUTH_TOKEN : ℕ := 1

def ADB_AUTH_SIGNATURE : ℕ := 2

def ADB_AUTH_RSAPUBLICKEY : ℕ := 3

/-- The connection state named by a banner: its part before the first colon. -/
def bannerState (banner : List Byte) : ConnectionState :=
  let type := (cString banner).takeWhile (· ≠ 0x3a)
  if type = text "bootloader" then .bootloader
  else if type = text "device" then .device
  else if type = text "recovery" then .recovery
  else if type = text "sideload" then .sideload
  else .host

section Transports

variable (env : Env)

/-- The loop of `run_transport_disconnects` over the callbacks registered when it starts: the next
one is remembered before each call, and no callback registers another. -/
def runDisconnects : List Addr → Server → Except Fault Server
  | [], w => .ok w
  | a :: rest, w => do
      let w ← w.remoteSocketDisconnect a
      runDisconnects rest w

def runTransportDisconnects (t : TransportId) (w : Server) : Except Fault Server :=
  runDisconnects (w.disconnects t) w

def handleOffline (t : TransportId) (w : Server) : Except Fault Server :=
  runTransportDisconnects t { w with online := Function.update w.online t false }

def handleOnline (t : TransportId) (w : Server) : Server :=
  { w with online := Function.update w.online t true }

def updateTrackers : List Addr → Server → Except Fault Server
  | [], w => .ok w
  | a :: rest, w => do
      let (w, _) ← deviceTrackerSend (callEnqueue env enqueueDepth) a (listTransportsMsg env) w
      updateTrackers rest w

def updateTransports (w : Server) : Except Fault Server :=
  updateTrackers env w.deviceTrackerList w

def setConnectionState (t : TransportId) (c : ConnectionState) (w : Server) : Server :=
  { w with connectionState := Function.update w.connectionState t c }

/-- `parse_banner`; a banner of another kind is no news for the trackers. -/
def parseBanner (banner : List Byte) (t : TransportId) (w : Server) : Except Fault Server :=
  let w := setConnectionState t (bannerState banner) w
  if bannerState banner = .host then .ok w else updateTransports env w

def closeAllLoop (t : TransportId) : ℕ → Server → Except Fault Server
  | 0, w => .ok w
  | fuel + 1, w =>
      let belongs := fun a => (w.socket a).any (fun s =>
        s.transport = some t || (s.peer.bind w.socket).any (fun q => q.transport = some t))
      match w.localSocketList.find? belongs with
      | none => .ok w
      | some a => do
          let w ← closeSocket closeDepth true .locked a w
          closeAllLoop t fuel w

def closeAllSockets (t : TransportId) (w : Server) : Except Fault Server :=
  closeAllLoop t w.localSocketList.length w

end Transports

section Packets

variable (host authEnabled : Bool) (env : Env)

def sendConnect (t : TransportId) (w : Server) : Server :=
  let data := if host then text "host::" ++ [0] else env.banner
  w.sendPacket ⟨.aCnxn, A_VERSION, MAX_PAYLOAD, data⟩ t

def sendAuthRequest (t : TransportId) (w : Server) : Server :=
  match env.authToken with
  | some token => w.sendPacket ⟨.aAuth, ADB_AUTH_TOKEN, 0, token⟩ t
  | none => w

def sendAuthData (arg0 : ℕ) (data : Option (List Byte)) (t : TransportId) (w : Server) : Server :=
  match data with
  | some data => w.sendPacket ⟨.aAuth, arg0, 0, data⟩ t
  | none => w

def handleSync (p : Packet) (t : TransportId) (w : Server) : Except Fault Server :=
  if p.arg0 ≠ 0 then
    let w := w.sendPacket p t
    .ok (if host then sendConnect host env t w else w)
  else do
    let w ← handleOffline t (setConnectionState t .offline w)
    return w.sendPacket p t

def handleCnxn (p : Packet) (t : TransportId) (w : Server) : Except Fault Server := do
  let w ← if w.connectionState t ≠ .offline then
      handleOffline t (setConnectionState t .offline w)
    else .ok w
  let w ← parseBanner env p.data t w
  if host || !authEnabled then
    let w := handleOnline t w
    return if host then w else sendConnect host env t w
  else return sendAuthRequest env t w

def handleAuth (p : Packet) (t : TransportId) (w : Server) : Server :=
  if p.arg0 = ADB_AUTH_TOKEN then
    let w := setConnectionState t .unauthorized w
    if env.authNextKey then sendAuthData ADB_AUTH_SIGNATURE env.authResponse t w
    else sendAuthData ADB_AUTH_RSAPUBLICKEY env.authPublicKey t w
  else if p.arg0 = ADB_AUTH_SIGNATURE then
    if env.authVerify then sendConnect host env t (handleOnline t w) else sendAuthRequest env t w
  else w

/-- `A_OPEN`: the name ends one byte before the end of the payload, or at a NUL before that. -/
def handleOpen (p : Packet) (t : TransportId) (w : Server) : Except Fault Server :=
  if w.online t ∧ p.arg0 ≠ 0 ∧ p.arg1 = 0 then
    if env.serviceToFd (cString p.data.dropLast) then do
      let (w, a) := w.createLocalSocket
      let s ← w.get a
      let w ← w.connectRemote a s p.arg0 t
      let w := w.sendPacket ⟨.aOkay, s.id, p.arg0, []⟩ t
      callReady env (callEnqueue env enqueueDepth) a w
    else .ok (w.sendPacket ⟨.aClse, 0, p.arg0, []⟩ t)
  else .ok w

def handleOkay (p : Packet) (t : TransportId) (w : Server) : Except Fault Server :=
  if w.online t ∧ p.arg0 ≠ 0 ∧ p.arg1 ≠ 0 then do
    match ← w.findLocalSocket p.arg1 0 with
    | none => return w
    | some a => do
        let s ← w.get a
        match s.peer with
        | none => do
            let w ← w.connectRemote a s p.arg0 t
            callReady env (callEnqueue env enqueueDepth) a w
        | some b => do
            let q ← w.get b
            if q.id = p.arg0 then callReady env (callEnqueue env enqueueDepth) a w
            else return w
  else .ok w

def handleClse (p : Packet) (t : TransportId) (w : Server) : Except Fault Server :=
  if w.online t ∧ p.arg1 ≠ 0 then do
    match ← w.findLocalSocket p.arg1 p.arg0 with
    | none => return w
    | some a => do
        let s ← w.get a
        match s.peer with
        | none => w.close a
        | some b => do
            let q ← w.get b
            if p.arg0 = 0 ∧ q.transport ≠ some t then return w else w.close a
  else .ok w

def handleWrte (p : Packet) (t : TransportId) (w : Server) : Except Fault Server :=
  if w.online t ∧ p.arg0 ≠ 0 ∧ p.arg1 ≠ 0 then do
    match ← w.findLocalSocket p.arg1 p.arg0 with
    | none => return w
    | some a => do
        let w := w.setTrace a { w.trace a with accepted := (w.trace a).accepted + 1 }
        let (w, r) ← callEnqueue env enqueueDepth a p.data w
        if r = 0 then
          let s ← w.get a
          return (w.acknowledge a).sendPacket ⟨.aOkay, s.id, p.arg0, []⟩ t
        return w
  else .ok w

def handleHdsk (p : Packet) (t : TransportId) (w : Server) : Server :=
  if p.arg0 = PAX_HANDSHAKE_REQ ∧ host then
    w.sendPacket ⟨.aHdsk, PAX_HANDSHAKE_RES, 0, text "paxadb"⟩ t
  else w

def handlePacket (p : Packet) (t : TransportId) (w : Server) : Except Fault Server :=
  match p.command with
  | .aSync => handleSync host env p t w
  | .aCnxn => handleCnxn host authEnabled env p t w
  | .aAuth => .ok (handleAuth host env p t w)
  | .aOpen => handleOpen env p t w
  | .aOkay => handleOkay env p t w
  | .aClse => handleClse p t w
  | .aWrte => handleWrte env p t w
  | .aHdsk => .ok (handleHdsk host p t w)
  | .unknown _ => .ok w

end Packets

end PaxAdb.Sockets
