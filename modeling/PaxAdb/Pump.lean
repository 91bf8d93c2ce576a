import PaxAdb.InputThread
import PaxAdb.TransportLinks

/-!
# The threads of a transport

Three parties share a transport: `output_thread` reads packets from the device and passes them on
to the main loop, the main loop handles them, and `input_thread` writes what the main loop has sent
to the device. They are joined by the two directions of a socket pair. The one towards the input
thread is the outbox of the transport.

The `SYNC` the output thread posts first goes round all three. It is what makes the input thread
active, and it is the reason why nothing the main loop sends is lost.
-/

namespace PaxAdb.Sockets

open Server Runs List Packet Function
open Wire (InputThread)

inductive OutputThread where
  | starting
  | pumping
  | exited
  deriving DecidableEq, Repr

structure Pump where
  syncToken : ℕ
  output : OutputThread
  /-- posted by the output thread and not yet read by the main loop -/
  fromDevice : List Packet
  server : Server
  input : InputThread
  /-- everything that was read from the device -/
  received : List Packet
  /-- everything that was handed to `write_to_remote` -/
  written : List Packet
  /-- everything but `SYNC` the input thread has dropped -/
  dropped : List Packet

/-- The transport is registered; `init_usb_transport` and `init_socket_transport` set the token. -/
def Pump.start (w : Server) : Pump := ⟨1, .starting, [], w, .start, [], [], []⟩

inductive PumpAction where
  /-- the output thread starts -/
  | start
  /-- `read_from_remote` returns 0 -/
  | read (x : Packet)
  /-- `read_from_remote` fails -/
  | readFailed
  /-- the main loop handles the next packet from this transport -/
  | handle (env : Env) (reads : List ReadResult) (writes : List WriteResult)
  /-- the input thread takes the next packet from the main loop -/
  | write
  /-- anything else the server does -/
  | other (i : Input)

namespace Pump

section Step

variable (authEnabled : Bool) (t : TransportId) (s : Pump)

def post (x : Packet) : Pump := { s with fromDevice := s.fromDevice ++ [x] }

def handle (env : Env) (reads : List ReadResult) (writes : List WriteResult) : Option Pump :=
  match s.fromDevice with
  | [] => none
  | x :: rest =>
      match handlePacket true authEnabled env x t
        { s.server with reads := reads, writes := writes } with
      | .ok w => some { s with fromDevice := rest, server := { w with reads := [], writes := [] } }
      | .error _ => none

def take (x : Packet) (rest : List Packet) : Pump :=
  let (input, out) := s.input.read s.syncToken x
  { s with
    server := { s.server with outbox := update s.server.outbox t rest }
    input := input
    written := s.written ++ out.toList
    dropped := s.dropped ++ if x.command ≠ .aSync ∧ out = none then [x] else [] }

def write : Option Pump :=
  if s.input.exited then none
  else
    match s.server.outbox t with
    | [] => none
    | x :: rest => some (s.take t x rest)

def step : PumpAction → Option Pump
  | .start =>
      if s.output = .starting then
        some ({ s with syncToken := s.syncToken + 1, output := .pumping }.post
          ⟨.aSync, 1, s.syncToken + 1, []⟩)
      else none
  | .read x =>
      if s.output = .pumping then some ({ s with received := s.received ++ [x] }.post x) else none
  | .readFailed =>
      if s.output = .pumping then some ({ s with output := .exited }.post ⟨.aSync, 0, 0, []⟩)
      else none
  | .handle env reads writes => s.handle authEnabled t env reads writes
  | .write => s.write t
  | .other i => (Sockets.step true authEnabled s.server i).map ({ s with server := · })

end Step

end Pump

def Packet.isHandshakeRequest (x : Packet) : Bool :=
  x.command = .aHdsk && x.arg0 = PAX_HANDSHAKE_REQ

def Packet.isHandshakeResponse (x : Packet) : Bool :=
  x = ⟨.aHdsk, PAX_HANDSHAKE_RES, 0, text "paxadb"⟩

structure AnswerTo (x : Packet) (ps : List Packet) : Prop where
  length : ps.length ≤ 2
  online : x.command = .aSync → x.arg0 ≠ 0 → ∃ c, ps = [x, c] ∧ c.command = .aCnxn
  sync : (x.command = .aSync → x.arg0 = 0) → ∀ y ∈ ps, y.command = .aSync → y.arg0 = 0
  handshake : ps.countP isHandshakeResponse = if x.isHandshakeRequest then 1 else 0

section Answers

variable {authEnabled : Bool} {env : Env} {w w' : Server} {x : Packet} {t : TransportId}

theorem AnswerTo.plain {ps : List Packet} (hx : x.command ≠ .aSync) (hx' : x.command ≠ .aHdsk)
    (hlen : ps.length ≤ 2) (h : ∀ y ∈ ps, y.command ≠ .aSync ∧ y.command ≠ .aHdsk) :
    AnswerTo x ps where
  length := hlen
  online hs := absurd hs hx
  sync _ y hy hs := absurd hs (h y hy).1
  handshake := by
    have hreq : x.isHandshakeRequest = false := by simp [isHandshakeRequest, hx']
    rw [hreq, countP_eq_zero.mpr]
    · rfl
    · intro y hy hres
      rw [isHandshakeResponse, decide_eq_true_eq] at hres
      exact (h y hy).2 (by rw [hres])

theorem Links.outbox_send (l : Links) (x : Packet) (t : TransportId) :
    (l.send x t).outbox t = l.outbox t ++ [x] := update_self ..

theorem Links.receive_answers (authEnabled : Bool) (env : Env) (l : Links) (x : Packet)
    (t : TransportId) (hx : x.command.ofConnection = false) :
    ∃ ps, (l.receive true authEnabled env x t).outbox t = l.outbox t ++ ps ∧ AnswerTo x ps := by
  have hnone : x.command ≠ .aSync → x.command ≠ .aHdsk → ∀ l' : Links, l'.outbox = l.outbox →
      ∃ ps, l'.outbox t = l.outbox t ++ ps ∧ AnswerTo x ps := fun h h' l' hl =>
    ⟨[], by rw [hl, append_nil], .plain h h' (Nat.zero_le 2) nofun⟩
  have hone : x.command ≠ .aSync → x.command ≠ .aHdsk → ∀ (l' : Links) (y : Packet),
      l'.outbox = l.outbox → y.command ≠ .aSync → y.command ≠ .aHdsk →
      ∃ ps, (l'.send y t).outbox t = l.outbox t ++ ps ∧ AnswerTo x ps :=
    fun h h' l' y hl hy hy' =>
      ⟨[y], by rw [outbox_send, hl], .plain h h' (by simp) (by simp [hy, hy'])⟩
  unfold receive
  split
  next hc =>
    have hreq : x.isHandshakeRequest = false := by simp [isHandshakeRequest, hc]
    have hres : x.isHandshakeResponse = false := by
      rw [isHandshakeResponse, decide_eq_false_iff_not]
      rintro rfl
      cases hc
    simp only [sync, if_true]
    split_ifs with h0
    · refine ⟨[x, connectPacket true env], ?_, by simp, fun _ _ => ⟨_, rfl, rfl⟩,
        fun h => absurd (h hc) h0, ?_⟩
      · rw [outbox_send, outbox_send, append_assoc]
        rfl
      · have hcon : (connectPacket true env).isHandshakeResponse = false := by
          simp [isHandshakeResponse, connectPacket]
        simp [hreq, hres, hcon]
    · refine ⟨[x], outbox_send _ _ _, by simp, fun _ h => absurd h h0, fun h y hy _ => ?_, ?_⟩
      · cases mem_singleton.mp hy
        exact not_not.mp h0
      · simp [hreq, hres]
  next hc =>
    refine hnone (by simp [hc]) (by simp [hc]) _ ?_
    simp only [cnxn, Bool.true_or, if_true]
    split_ifs <;> rfl
  next hc =>
    have h1 : x.command ≠ .aSync := by simp [hc]
    have h2 : x.command ≠ .aHdsk := by simp [hc]
    have hdata : ∀ n data, ∃ ps, ((l.setState t .unauthorized).authData n data t).outbox t =
        l.outbox t ++ ps ∧ AnswerTo x ps := by
      intro n data
      cases data with
      | none => exact hnone h1 h2 _ rfl
      | some data => exact hone h1 h2 _ _ rfl (by simp) (by simp)
    unfold auth
    split_ifs
    · exact hdata _ _
    · exact hdata _ _
    · exact hone h1 h2 _ _ rfl (by simp [connectPacket]) (by simp [connectPacket])
    · unfold authRequest
      cases env.authToken with
      | none => exact hnone h1 h2 _ rfl
      | some token => exact hone h1 h2 _ _ rfl (by simp) (by simp)
    · exact hnone h1 h2 _ rfl
  next hc =>
    unfold hdsk
    split_ifs with hreq
    · refine ⟨_, outbox_send _ _ _, by simp, fun h => absurd h (by simp [hc]), ?_, ?_⟩
      · intro _ y hy hs
        cases mem_singleton.mp hy
        cases hs
      · simp [isHandshakeRequest, isHandshakeResponse, hc, hreq.1]
    · refine ⟨[], (append_nil _).symm, Nat.zero_le 2, fun h => absurd h (by simp [hc]), nofun, ?_⟩
      have hno : x.arg0 ≠ PAX_HANDSHAKE_REQ := fun h => hreq ⟨h, rfl⟩
      simp [isHandshakeRequest, hno]
  next hs _ _ hh => exact hnone hs hh _ rfl

theorem handlePacket_answers (h : Graph w)
    (hrun : handlePacket true authEnabled env x t w = .ok w') :
    Graph w' ∧ ∃ ps, w'.outbox t = w.outbox t ++ ps ∧ AnswerTo x ps := by
  have hspec := handlePacket_links true authEnabled env h x t
  rw [hrun] at hspec
  obtain ⟨hg, hspec⟩ := hspec
  refine ⟨hg, ?_⟩
  by_cases hc : x.command.ofConnection = true
  · rw [if_pos hc] at hspec
    obtain ⟨ps, hps, hlen, hall⟩ := hspec.outbox t
    have hne : ∀ y : Packet, y.command.ofConnection = true →
        y.command ≠ .aSync ∧ y.command ≠ .aHdsk := by
      intro y hy
      refine ⟨fun he => ?_, fun he => ?_⟩ <;> simp [he, Command.ofConnection] at hy
    exact ⟨ps, hps, .plain (hne x hc).1 (hne x hc).2 (by omega) fun y hy => hne y (hall y hy)⟩
  · rw [if_neg hc] at hspec
    obtain ⟨ps, hps, hans⟩ := Links.receive_answers authEnabled env w.links x t (by simpa using hc)
    refine ⟨ps, ?_, hans⟩
    change w'.links.outbox t = _
    rw [hspec, hps]
    rfl

end Answers

section Invariant

def NoOnline (ps : List Packet) : Prop := ∀ x ∈ ps, x.command = .aSync → x.arg0 = 0

inductive Pump.Stage (t : TransportId) (s : Pump) : Prop where
  | unposted (hout : s.output = .starting) (hin : s.input = .start) (hdev : s.fromDevice = [])
      (hbox : s.server.outbox t = []) (hw : s.written = [])
  | posted (rest : List Packet) (hout : s.output ≠ .starting) (hin : s.input = .start)
      (hdev : s.fromDevice = ⟨.aSync, 1, s.syncToken, []⟩ :: rest) (hrest : NoOnline rest)
      (hbox : s.server.outbox t = []) (hw : s.written = [])
  | echoed (c : Packet) (rest : List Packet) (hout : s.output ≠ .starting) (hin : s.input = .start)
      (hdev : NoOnline s.fromDevice)
      (hbox : s.server.outbox t = ⟨.aSync, 1, s.syncToken, []⟩ :: c :: rest)
      (hc : c.command = .aCnxn) (hrest : NoOnline rest) (hw : s.written = [])
  | active (c : Packet) (rest : List Packet) (hout : s.output ≠ .starting)
      (hin : s.input.active = true) (hdev : NoOnline s.fromDevice)
      (hbox : NoOnline (s.server.outbox t)) (hc : c.command = .aCnxn)
      (hw : s.written ++ (s.server.outbox t).filter (fun x => x.command ≠ .aSync) = c :: rest)

structure Pump.Inv (t : TransportId) (s : Pump) : Prop where
  graph : Graph s.server
  stage : s.Stage t
  dropped : s.dropped = []
  /-- every request is still to be handled, or its answer is on its way, or it is written -/
  balance : s.written.countP isHandshakeResponse +
    (s.server.outbox t).countP isHandshakeResponse +
    s.fromDevice.countP isHandshakeRequest =
    s.received.countP isHandshakeRequest

variable {authEnabled : Bool} {t : TransportId} {s s' : Pump} {x : Packet} {rest : List Packet}

theorem NoOnline.append {ps qs : List Packet} (h : NoOnline ps) (h' : NoOnline qs) :
    NoOnline (ps ++ qs) :=
  fun x hx => (mem_append.mp hx).elim (h x) (h' x)

theorem NoOnline.tail (h : NoOnline (x :: rest)) : NoOnline rest :=
  fun y hy => h y (mem_cons_of_mem _ hy)

theorem Pump.inv_start {w : Server} (h : Graph w) (hbox : w.outbox t = []) :
    (Pump.start w).Inv t where
  graph := h
  stage := .unposted rfl rfl rfl hbox rfl
  dropped := rfl
  balance := by simp [Pump.start, hbox]

theorem Pump.Stage.post (h : s.Stage t) (hout : s.output = .pumping) (x : Packet)
    (hx : x.command = .aSync → x.arg0 = 0) (output : OutputThread) (hne : output ≠ .starting)
    (received : List Packet) :
    ({ s with output := output, received := received }.post x).Stage t := by
  have hone : NoOnline [x] := fun y hy => by
    cases mem_singleton.mp hy
    exact hx
  cases h with
  | unposted hout' => exact absurd (hout.symm.trans hout') (by simp)
  | posted rest _ hin hdev hrest hbox hw =>
    refine .posted (rest ++ [x]) hne hin ?_ (hrest.append hone) hbox hw
    change s.fromDevice ++ [x] = _
    rw [hdev]
    rfl
  | echoed c rest _ hin hdev hbox hc hrest hw =>
    exact .echoed c rest hne hin (hdev.append hone) hbox hc hrest hw
  | active c rest _ hin hdev hbox hc hw =>
    exact .active c rest hne hin (hdev.append hone) hbox hc hw

theorem Pump.Inv.handle {env : Env} {reads : List ReadResult} {writes : List WriteResult}
    (h : s.Inv t) (hs : s.handle authEnabled t env reads writes = some s') : s'.Inv t := by
  unfold Pump.handle at hs
  split at hs
  · cases hs
  next x rest hdev =>
    split at hs <;> cases hs
    next w hrun =>
      have hg : Graph { s.server with reads := reads, writes := writes } :=
        h.graph.congr rfl rfl rfl rfl rfl rfl rfl rfl
      obtain ⟨hg', ps, hps, hans⟩ := handlePacket_answers hg hrun
      change w.outbox t = s.server.outbox t ++ ps at hps
      refine ⟨hg'.congr rfl rfl rfl rfl rfl rfl rfl rfl, ?_, h.dropped, ?_⟩
      · cases h.stage with
        | unposted _ _ hdev' => exact absurd (hdev.symm.trans hdev') (by simp)
        | posted rest' hout hin hdev' hrest hbox hw =>
          cases hdev.symm.trans hdev'
          obtain ⟨c, rfl, hc⟩ := hans.online rfl one_ne_zero
          rw [hbox] at hps
          exact .echoed c [] hout hin hrest hps hc nofun hw
        | echoed c rest' hout hin hdev' hbox hc hrest hw =>
          rw [hdev] at hdev'
          have hno : NoOnline ps := hans.sync (hdev' x mem_cons_self)
          rw [hbox, cons_append, cons_append] at hps
          exact .echoed c (rest' ++ ps) hout hin hdev'.tail hps hc (hrest.append hno) hw
        | active c rest' hout hin hdev' hbox hc hw =>
          rw [hdev] at hdev'
          have hno : NoOnline ps := hans.sync (hdev' x mem_cons_self)
          have hbox' : NoOnline (w.outbox t) := hps ▸ hbox.append hno
          refine .active c (rest' ++ ps.filter (fun x => x.command ≠ .aSync)) hout hin
            hdev'.tail hbox' hc ?_
          change s.written ++ (w.outbox t).filter _ = _
          rw [hps, filter_append, ← append_assoc, hw]
          rfl
      · have hb := h.balance
        rw [hdev, countP_cons] at hb
        change s.written.countP _ + (w.outbox t).countP _ + rest.countP _ =
          s.received.countP _
        rw [hps, countP_append, hans.handshake]
        omega

/-- The input thread is active after it has read `x`, and has not dropped it. -/
theorem Pump.Inv.take (h : s.Inv t) {c : Packet} {input : InputThread} {out : Option Packet}
    (rest' : List Packet) (hbox : s.server.outbox t = x :: rest)
    (hread : s.input.read s.syncToken x = (input, out)) (hin : input.active = true)
    (hout : s.output ≠ .starting) (hdev : NoOnline s.fromDevice) (hno : NoOnline rest)
    (hc : c.command = .aCnxn)
    (hw : s.written ++ out.toList ++ rest.filter (fun x => x.command ≠ .aSync) = c :: rest')
    (hkept : x.command ≠ .aSync → out ≠ none)
    (hcount : out.toList.countP isHandshakeResponse =
      [x].countP isHandshakeResponse) : (s.take t x rest).Inv t := by
  have hrest : update s.server.outbox t rest t = rest := update_self ..
  have hb := h.balance
  rw [hbox, countP_cons, ← countP_singleton, ← hcount] at hb
  unfold Pump.take
  rw [hread]
  refine ⟨h.graph.congr rfl rfl rfl rfl rfl rfl rfl rfl, .active c rest' hout hin hdev ?_ hc ?_,
    ?_, ?_⟩
  · change NoOnline (update s.server.outbox t _ t)
    rwa [hrest]
  · change s.written ++ out.toList ++ (update s.server.outbox t _ t).filter _ = _
    rwa [hrest]
  · have hnone : ¬(x.command ≠ .aSync ∧ out = none) := fun hdrop => hkept hdrop.1 hdrop.2
    simp [h.dropped, hnone]
  · change (s.written ++ out.toList).countP _ + (update s.server.outbox t _ t).countP _ +
      s.fromDevice.countP _ = s.received.countP _
    rw [hrest, countP_append]
    omega

theorem Pump.Inv.write (h : s.Inv t) (hs : s.write t = some s') : s'.Inv t := by
  unfold Pump.write at hs
  split at hs
  · cases hs
  · split at hs
    · cases hs
    next x rest hbox =>
      cases hs
      cases h.stage with
      | unposted _ _ _ hbox' | posted _ _ _ _ _ hbox' =>
        exact absurd (hbox.symm.trans hbox') (by simp)
      | echoed c rest' hout hin hdev hbox' hc hno hw =>
        cases hbox.symm.trans hbox'
        have hread : s.input.read s.syncToken ⟨.aSync, 1, s.syncToken, []⟩ =
            (⟨true, false⟩, none) := by
          rw [hin]
          simp [InputThread.read, InputThread.start]
        have hno' : NoOnline (c :: rest') := by
          rintro y (_ | ⟨_, hy⟩)
          · intro hs
            cases hc.symm.trans hs
          · exact hno y hy
        refine h.take (rest'.filter (fun x => x.command ≠ .aSync)) hbox hread rfl hout hdev hno'
          hc ?_ (fun hx => absurd rfl hx) rfl
        rw [hw, filter_cons, if_pos (by simp [hc])]
        rfl
      | active c rest' hout hin hdev hno hc hw =>
        rw [hbox] at hno hw
        by_cases hx : x.command = .aSync
        · -- only `SYNC(0)` is left, which ends the thread
          have hread : s.input.read s.syncToken x =
              ({ s.input with exited := true }, none) := by
            simp [InputThread.read, hx, hno x mem_cons_self hx]
          have hres : x.isHandshakeResponse = false := by
            rw [isHandshakeResponse, decide_eq_false_iff_not]
            rintro rfl
            cases hx
          refine h.take rest' hbox hread hin hout hdev hno.tail hc ?_ (absurd hx)
            (by simp [hres])
          rw [Option.toList_none, append_nil, ← hw, filter_cons, if_neg (by simp [hx])]
        · have hread : s.input.read s.syncToken x = (s.input, some x) := by
            simp [InputThread.read, hx, hin]
          refine h.take rest' hbox hread hin hout hdev hno.tail hc ?_ (fun _ => by simp) rfl
          rw [← hw, filter_cons, if_pos (by simp [hx]), append_assoc]
          rfl

/-- What the device and the three parties can do of their own accord: the device sends no `SYNC`,
and the server does nothing else. -/
def PumpAction.Plain : PumpAction → Prop
  | .read x => x.command ≠ .aSync
  | .other _ => False
  | _ => True

theorem Pump.Inv.step {a : PumpAction} (h : s.Inv t) (ha : a.Plain)
    (hs : s.step authEnabled t a = some s') : s'.Inv t := by
  have hb := h.balance
  cases a with
  | start =>
    simp only [Pump.step] at hs
    split_ifs at hs with hout
    cases hs
    cases h.stage with
    | unposted _ hin hdev hbox hw =>
      refine ⟨h.graph, .posted [] (by simp [Pump.post]) hin ?_ nofun hbox hw, h.dropped, ?_⟩
      · change s.fromDevice ++ _ = _
        rw [hdev]
        rfl
      · change s.written.countP _ + (s.server.outbox t).countP _ +
          (s.fromDevice ++ _).countP _ =
          s.received.countP _
        rw [countP_append, ← hb]
        rfl
    | posted _ hne | echoed _ _ hne | active _ _ hne => exact absurd hout hne
  | read x =>
    simp only [Pump.step] at hs
    split_ifs at hs with hout
    cases hs
    refine ⟨h.graph, ?_, h.dropped, ?_⟩
    · exact h.stage.post hout x (fun hx => absurd hx ha) s.output (by simp [hout]) _
    · change s.written.countP _ + (s.server.outbox t).countP _ + (s.fromDevice ++ [x]).countP _ =
        (s.received ++ [x]).countP _
      rw [countP_append, countP_append]
      omega
  | readFailed =>
    simp only [Pump.step] at hs
    split_ifs at hs with hout
    cases hs
    refine ⟨h.graph, ?_, h.dropped, ?_⟩
    · exact h.stage.post hout _ (fun _ => rfl) .exited (by simp) _
    · change s.written.countP _ + (s.server.outbox t).countP _ + (s.fromDevice ++ _).countP _ =
        s.received.countP _
      rw [countP_append, ← hb]
      rfl
  | handle env reads writes => exact h.handle hs
  | write => exact h.write hs
  | other i => cases ha

end Invariant

/-- What the host has written to the device, and what was lost. -/
structure Pump.Greets (t : TransportId) (s : Pump) : Prop where
  first : ∀ x, s.written.head? = some x → x.command = .aCnxn
  nothingDropped : s.dropped = []
  answers_le : s.written.countP isHandshakeResponse ≤
    s.received.countP isHandshakeRequest
  answers_eq : s.fromDevice = [] → s.server.outbox t = [] →
    s.written.countP isHandshakeResponse = s.received.countP isHandshakeRequest

theorem Pump.Inv.greets {t : TransportId} {s : Pump} (h : s.Inv t) : s.Greets t where
  first x hx := by
    have hne : s.written ≠ [] := by
      intro hnil
      rw [hnil] at hx
      cases hx
    cases h.stage with
    | unposted _ _ _ _ hw | posted _ _ _ _ _ _ hw | echoed _ _ _ _ _ _ _ _ hw => exact absurd hw hne
    | active c rest _ _ _ _ hc hw =>
      obtain ⟨y, ys, hys⟩ := exists_cons_of_ne_nil hne
      rw [hys] at hx hw
      cases hx
      cases hw
      exact hc
  nothingDropped := h.dropped
  answers_le := by
    have := h.balance
    omega
  answers_eq hdev hbox := by
    have hb := h.balance
    rw [hdev, hbox] at hb
    exact hb

/-- Whatever the device sends but `SYNC`, and however the threads and the main loop take turns: the
first packet to the device is `CNXN`, the input thread drops nothing, and every handshake request is
answered once. A handshake changes nothing but the outbox. The transport may be registered in any
state the server can be in. -/
theorem handshake_answered (authEnabled : Bool) (t : TransportId) {w : Server}
    (hw : Run (step true authEnabled) (fun _ _ => True) Server.init w) (hbox : w.outbox t = []) :
    (∀ s, Run (Pump.step authEnabled t) (fun _ a => a.Plain) (Pump.start w) s → s.Greets t) ∧
      ∀ (w₁ : Server) (env : Env) (x : Packet), x.command = .aHdsk →
        ∃ w₂, handlePacket true authEnabled env x t w₁ = .ok w₂ ∧
          w₂ = { w₁ with outbox := w₂.outbox } := by
  refine ⟨fun s hrun => ?_, fun w₁ env x hx => ?_⟩
  · have hinv : s.Inv t := hrun.invariant (Pump.inv_start (Graph.run hw) hbox)
      fun _ _ _ hi ha hs => hi.step ha hs
    exact hinv.greets
  · refine ⟨handleHdsk true x t w₁, by simp only [handlePacket, hx], ?_⟩
    unfold handleHdsk
    split <;> rfl

def handshakeRun : List PumpAction :=
  [.start, .read ⟨.aHdsk, PAX_HANDSHAKE_REQ, 0, []⟩, .handle plainEnv [] [], .write,
    .handle plainEnv [] [], .write, .write]

theorem handshake_answered_early : ∃ s, Run (Pump.step false 0) (fun _ a => a.Plain)
      (Pump.start .init) s ∧ s.written.map (·.command) = [.aCnxn, .aHdsk] ∧ s.Greets 0 := by
  have hexec : (exec (Pump.step false 0) (Pump.start .init) handshakeRun).map
      (fun s => s.written.map (·.command)) = some [.aCnxn, .aHdsk] := by decide +kernel
  obtain ⟨s, hs, hw⟩ := Option.map_eq_some_iff.mp hexec
  have hplain : ∀ a ∈ handshakeRun, ∀ s : Pump, a.Plain := by
    intro a ha _
    simp only [handshakeRun, mem_cons, not_mem_nil, or_false] at ha
    rcases ha with rfl | rfl | rfl | rfl | rfl | rfl | rfl <;> simp [PumpAction.Plain]
  have hrun := run_of_exec hplain hs
  exact ⟨s, hrun, hw, (handshake_answered false 0 Relation.ReflTransGen.refl rfl).1 s hrun⟩

end PaxAdb.Sockets
