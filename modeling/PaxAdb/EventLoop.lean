import PaxAdb.HandlePacket
import PaxAdb.Runs

/-!
# The event loop

One step of the server is one call of `select` with the results it reports, or one handler: the
callback of a socket whose descriptor was reported, a new client, a packet from a transport, or one
of the calls other parts of the server make. Handlers of other descriptors may run between the
callbacks of one round, as they do when their descriptors are reported together.
-/

namespace PaxAdb.Sockets

def drainLoop : List WriteResult → List (List Byte) → List (List Byte) × List WriteResult × Outcome
  | writes, [] => ([], writes, .done)
  | writes, p :: queue =>
      match writeLoop true writes p with
      | (_, writes, .done) => drainLoop writes queue
      | (rest, writes, outcome) => (rest :: queue, writes, outcome)

inductive LastResult where
  | zero
  | nonzero
  deriving DecidableEq, Repr

def readLoop : List ReadResult → ℕ → List Byte → LastResult → List Byte × Bool × LastResult
  | _, 0, acc, r => (acc, false, r)
  | [], _ + 1, acc, _ => (acc, false, .nonzero)
  | .data [] :: _, _ + 1, acc, _ => (acc, true, .zero)
  | .data (b :: bytes) :: reads, avail + 1, acc, _ =>
      readLoop reads (avail - bytes.length) (acc ++ (b :: bytes).take (avail + 1)) .nonzero
  | .eagain :: _, _ + 1, acc, _ => (acc, false, .nonzero)
  | .eintr :: reads, avail + 1, acc, _ => readLoop reads (avail + 1) acc .nonzero
  | .error :: _, _ + 1, acc, _ => (acc, true, .nonzero)

section Handler

variable (env : Env)

def localSocketWritable (a : Addr) (w : Server) : Except Fault (Server × Bool) := do
  let s ← w.get a
  let (queue, writes, outcome) := drainLoop w.writes s.queue
  let bytes := s.queue.flatten.take (s.queue.flatten.length - queue.flatten.length)
  let w := { w.wrote a .data bytes with writes := writes }
  let w := w.store a { s with queue := queue }
  match outcome with
  | .blocked => return (w, false)
  | .failed => do
      let w ← (w.setTrace a { w.trace a with failed := true }).close a
      return (w, false)
  | .done =>
      if s.closing then do
        let w ← w.close a
        return (w, false)
      else do
        let w ← w.fdeventDel a .fdeWrite
        match s.peer with
        | none => .error .nullPointer
        | some p => do
            let w ← callReady env (callEnqueue env enqueueDepth) p w
            return (w, true)

def localSocketPass (a : Addr) (bytes : List Byte) (r : LastResult) (w : Server) :
    Except Fault (Server × Option LastResult) := do
  let s ← w.get a
  match bytes, s.peer with
  | [], _ => return (w, some r)
  | _, none => return (w, some r)
  | bytes, some p => do
      let q ← w.get p
      let w := if q.enqueue = .remoteSocketEnqueue then
          w.setTrace a { w.trace a with got := (w.trace a).got ++ bytes }
        else w
      let (w, r) ← callEnqueue env enqueueDepth p bytes w
      if r < 0 then return (w, none)
      else if r > 0 then do
        let w ← w.fdeventDel a .fdeRead
        return (w, some .nonzero)
      else return (w, some .zero)

def localSocketReadable (a : Addr) (w : Server) : Except Fault Server := do
  let s ← w.get a
  let reads := if s.fde.bad then [ReadResult.error] else w.reads
  let (bytes, isEof, r) := readLoop reads MAX_PAYLOAD [] .nonzero
  match ← localSocketPass env a bytes r w with
  | (w, none) => return w
  | (w, some r) => do
      let s ← w.get a
      if (s.fde.forceEof ∧ r = .zero) ∨ isEof then w.close a else return w

def localSocketEventFunc (a : Addr) (ev : Events) (w : Server) : Except Fault Server := do
  let (w, goesOn) ← if ev.write then localSocketWritable env a w else .ok (w, true)
  if goesOn ∧ ev.read then localSocketReadable env a w else return w

def dispatch (w : Server) : Except Fault Server :=
  match w.listPending with
  | [] => .ok w
  | a :: rest => do
      let s ← w.get a
      let w := { w.store a { s with fde := { s.fde with events := .none } } with
        listPending := rest }
      localSocketEventFunc env a s.fde.events w

def reportEvents (w : Server) (a : Addr) (events : Events) (bad : Bool) : Server :=
  match w.socket a with
  | none => w
  | some s =>
      { w.store a { s with fde :=
          { s.fde with events := s.fde.events.union events, bad := s.fde.bad || bad } } with
        listPending := if a ∈ w.listPending then w.listPending else w.listPending ++ [a] }

def Server.isLocal (w : Server) (a : Addr) : Bool :=
  (w.socket a).any (fun s => s.enqueue = .localSocketEnqueue)

def Server.waitsFor (w : Server) (a : Addr) (events : Events) : Bool :=
  (w.socket a).any (fun s => s.enqueue = .localSocketEnqueue ∧ events ≠ .none ∧
    events.without s.fde.state = .none)

def acceptSmart (w : Server) : Except Fault Server := do
  let (w, a) := w.createLocalSocket
  let ss := w.nextAddr
  let q : ASocket :=
    { id := 0, closing := false, peer := some a, fde := ⟨.none, .none, false, false⟩, queue := [],
      enqueue := .smartSocketEnqueue, ready := .smartSocketReady, shutdown := none,
      close := .smartSocketClose, transport := none, updateNeeded := false }
  let s ← w.get a
  let w := (w.store ss q).store a { s with peer := some ss }
  callReady env (callEnqueue env enqueueDepth) a { w with nextAddr := ss + 1 }

def acceptForward (t : TransportId) (connectTo : List Byte) (w : Server) : Except Fault Server := do
  let (w, a) := w.createLocalSocket
  let s ← w.get a
  let w := w.store a { s with transport := some t }
  if connectTo.length + 1 > MAX_PAYLOAD - 1 then .error .exit
  else return w.sendPacket ⟨.aOpen, s.id, 0, connectTo ++ [0]⟩ t

end Handler

inductive Action where
  | poll (ready : List (Addr × Events))
  /-- `select` fails with `EBADF`, and these descriptors are found bad -/
  | pollBad (bad : List Addr)
  | dispatch
  | acceptSmart
  | acceptForward (t : TransportId) (connectTo : List Byte)
  | packet (p : Packet) (t : TransportId)
  | closeAllSockets (t : TransportId)
  | transportDisconnects (t : TransportId)
  | updateTransports

structure Input where
  action : Action
  reads : List ReadResult
  writes : List WriteResult
  env : Env

def Action.run (host authEnabled : Bool) (env : Env) (w : Server) : Action → Except Fault Server
  | .poll ready => .ok (ready.foldl (fun w x => reportEvents w x.1 x.2 false) w)
  | .pollBad bad => .ok (bad.foldl (fun w a => reportEvents w a .fdeRead true) w)
  | .dispatch => Sockets.dispatch env w
  | .acceptSmart => Sockets.acceptSmart env w
  | .acceptForward t connectTo => Sockets.acceptForward t connectTo w
  | .packet p t => handlePacket host authEnabled env p t w
  | .closeAllSockets t => Sockets.closeAllSockets t w
  | .transportDisconnects t => runTransportDisconnects t w
  | .updateTransports => Sockets.updateTransports env w

/-- When the step can be taken: `select` is called when all reported events have been handled, and
reports events that are waited for; bad descriptors are those of local sockets. -/
def Action.enabled (w : Server) : Action → Bool
  | .poll ready => w.listPending = [] && ready.all (fun x => w.waitsFor x.1 x.2)
  | .pollBad bad => w.listPending = [] && bad.all w.isLocal
  | _ => true

/-- `none` where the step is not possible or what the source does is undefined. -/
def step (host authEnabled : Bool) (w : Server) (i : Input) : Option Server :=
  if i.action.enabled w then
    match i.action.run host authEnabled i.env { w with reads := i.reads, writes := i.writes } with
    | .ok w' => some { w' with reads := [], writes := [] }
    | .error _ => none
  else none

end PaxAdb.Sockets
