import PaxAdb.SocketInvariant

/-!
# Requests of a client and the packets they come in

A client writes its requests one behind the other. The server gets the bytes in packets, which a
smart socket collects until they hold a request. What it acts on are the calls of
`handle_host_request`, `create_host_service_socket` and `connect_to_remote` it makes: `feed` says
which these are, and `smartActs_eq` that the smart socket of the server makes just these. After a
`transport` request whatever has come with it in the same packet is dropped.
-/

namespace PaxAdb.Sockets

open ASocket Server Runs List

inductive ServerAct where
  | handleHostRequest (request : HostRequest)
  | createHostServiceSocket (service : List Byte) (serial : Option (List Byte))
  | connectToRemote (destination : List Byte)
  deriving DecidableEq, Repr

section Reader

def requestOf (bytes : List Byte) : Option (List Byte) :=
  let len := unhex (bytes.take 4)
  if bytes.length < 4 ∨ (len < 1 ∨ len > 1024) ∨ len + 4 > bytes.length then none
  else some (cString ((bytes.drop 4).take len))

def requestEnd (bytes : List Byte) : ℕ := unhex (bytes.take 4) + 4

def HostRequest.isTransport (r : HostRequest) : Bool := (text "transport").isPrefixOf r.service

variable (env : Env) (online : TransportId → Bool)

def requestActs (t : Option TransportId) (service : List Byte) : List ServerAct :=
  match parseHostRequest service with
  | some r =>
      .handleHostRequest r ::
        if r.service = text "kill" ∨ r.isTransport ∨ env.handleHostRequest r then []
        else [.createHostServiceSocket r.service r.serial]
  | none => if t.any online then [.connectToRemote service] else []

def transportAfter (t : Option TransportId) (service : List Byte) :
    Option (Option TransportId) :=
  match parseHostRequest service with
  | some r => if r.isTransport then some ((env.acquireOneTransport r).or t) else none
  | none => none

inductive Reading where
  | closed
  | waiting (bytes : List Byte)
  | complete (service : List Byte)
  deriving DecidableEq, Repr

def collect (collected p : List Byte) : Reading :=
  let bytes := collected ++ p
  let len := unhex (bytes.take 4)
  if bytes.length > MAX_PAYLOAD then .closed
  else if bytes.length < 4 then .waiting bytes
  else if len < 1 ∨ len > 1024 then .closed
  else if len + 4 > bytes.length then .waiting bytes
  else .complete (cString ((bytes.drop 4).take len))

def feed : Option TransportId → List Byte → List (List Byte) → List ServerAct
  | _, _, [] => []
  | t, collected, p :: ps =>
      match collect collected p with
      | .closed => []
      | .waiting bytes => feed t bytes ps
      | .complete service =>
          requestActs env online t service ++
            match transportAfter env t service with
            | some t => feed t [] ps
            | none => []

structure Split (bytes : List Byte) (ps : List (List Byte)) : Prop where
  flatten : ps.flatten = bytes
  nonempty : ∀ p ∈ ps, p ≠ []
  short : ∀ p ∈ ps, p.length ≤ MAX_PAYLOAD

/-- A request for the server is in one packet with whatever comes behind it, and behind a request
for a transport no part of the bytes looks like a request the smart socket would act on. -/
def Settled (bytes : List Byte) : Prop :=
  ∀ service r, requestOf bytes = some service → parseHostRequest service = some r →
    bytes.length ≤ MAX_PAYLOAD ∧
      (r.isTransport → ∀ rest, rest <:+ bytes.drop (requestEnd bytes) →
        ∀ next, requestOf rest = some next →
          parseHostRequest next = none ∧ (env.acquireOneTransport r).any online = false)

end Reader

section Requests

variable {x y service : List Byte}

theorem requestOf_eq_some : requestOf x = some service ↔
    4 ≤ x.length ∧ 1 ≤ unhex (x.take 4) ∧ unhex (x.take 4) ≤ 1024 ∧ requestEnd x ≤ x.length ∧
      cString ((x.drop 4).take (unhex (x.take 4))) = service := by
  rw [requestOf, requestEnd]
  split
  next h =>
    refine ⟨nofun, ?_⟩
    rintro ⟨h1, h2, h3, h4, -⟩
    omega
  next h =>
    rw [Option.some.injEq]
    constructor
    · intro hs
      exact ⟨by omega, by omega, by omega, by omega, hs⟩
    · rintro ⟨-, -, -, -, hs⟩
      exact hs

theorem take_four_append (h : 4 ≤ x.length) (y : List Byte) : (x ++ y).take 4 = x.take 4 :=
  take_append_of_le_length h

theorem requestEnd_append (h : 4 ≤ x.length) (y : List Byte) :
    requestEnd (x ++ y) = requestEnd x := by
  rw [requestEnd, take_four_append h, requestEnd]

theorem requestOf_append_iff (h : 4 ≤ x.length) (hend : requestEnd x ≤ x.length) :
    requestOf (x ++ y) = some service ↔ requestOf x = some service := by
  have hservice : ((x ++ y).drop 4).take (unhex (x.take 4)) =
      (x.drop 4).take (unhex (x.take 4)) := by
    rw [drop_append_of_le_length h, take_append_of_le_length]
    rw [length_drop]
    rw [requestEnd] at hend
    omega
  rw [requestOf_eq_some, requestOf_eq_some, requestEnd_append h, take_four_append h, hservice,
    length_append]
  constructor
  · rintro ⟨-, hpos, hle, -, hs⟩
    exact ⟨h, hpos, hle, hend, hs⟩
  · rintro ⟨-, hpos, hle, -, hs⟩
    exact ⟨by omega, hpos, hle, by omega, hs⟩

theorem requestOf_append (h : requestOf x = some service) (y : List Byte) :
    requestOf (x ++ y) = some service := by
  obtain ⟨h4, -, -, hend, -⟩ := requestOf_eq_some.mp h
  exact (requestOf_append_iff h4 hend).mpr h

theorem requestEnd_of_request (h : requestOf x = some service) (y : List Byte) :
    requestEnd (x ++ y) = requestEnd x :=
  requestEnd_append (requestOf_eq_some.mp h).1 y

theorem collect_complete (h : requestOf (x ++ y) = some service)
    (hlen : (x ++ y).length ≤ MAX_PAYLOAD) : collect x y = .complete service := by
  obtain ⟨h4, hpos, hle, hend, hs⟩ := requestOf_eq_some.mp h
  rw [requestEnd] at hend
  rw [collect, if_neg (not_lt.mpr hlen), if_neg (not_lt.mpr h4), if_neg (by omega),
    if_neg (by omega), hs]

theorem collect_cases (x y : List Byte) :
    collect x y = .closed ∨ collect x y = .waiting (x ++ y) ∨
      ∃ service, collect x y = .complete service ∧ requestOf (x ++ y) = some service := by
  rw [collect]
  split
  · exact .inl rfl
  split
  · exact .inr (.inl rfl)
  split
  · exact .inl rfl
  split
  · exact .inr (.inl rfl)
  next h1 h2 h3 =>
    refine .inr (.inr ⟨_, rfl, requestOf_eq_some.mpr ?_⟩)
    exact ⟨by omega, by omega, by omega, by rw [requestEnd]; omega, rfl⟩

theorem collect_waiting {z : List Byte} (h : requestOf (x ++ y) = none)
    (hall : requestOf (x ++ y ++ z) = some service) (hlen : (x ++ y).length ≤ MAX_PAYLOAD) :
    collect x y = .waiting (x ++ y) := by
  obtain ⟨-, hpos, hle, -, -⟩ := requestOf_eq_some.mp hall
  rw [collect, if_neg (not_lt.mpr hlen)]
  split
  · rfl
  next h4 =>
    rw [take_four_append (not_lt.mp h4)] at hpos hle
    rw [if_neg (by omega), if_pos]
    by_contra hend
    have hsome : requestOf (x ++ y) = some _ :=
      requestOf_eq_some.mpr ⟨by omega, hpos, hle, by rw [requestEnd]; omega, rfl⟩
    exact absurd (hsome.symm.trans h) nofun

end Requests

section Feed

variable {env : Env} {online : TransportId → Bool} {t : Option TransportId}
  {collected service p : List Byte} {ps : List (List Byte)}

theorem requestActs_eq_nil_iff :
    requestActs env online t service = [] ↔
      parseHostRequest service = none ∧ t.any online = false := by
  rw [requestActs]
  cases parseHostRequest service with
  | some r => simp
  | none => simp

theorem feed_nil (h : ∀ service, requestOf (collected ++ ps.flatten) = some service →
      parseHostRequest service = none ∧ t.any online = false) :
    feed env online t collected ps = [] := by
  induction ps generalizing collected with
  | nil => rfl
  | cons p ps ih =>
    rw [flatten_cons, ← append_assoc] at h
    rw [feed]
    rcases collect_cases collected p with hc | hc | ⟨service, hc, hservice⟩
    · rw [hc]
    · rw [hc]
      exact ih h
    · have hnone := h service (requestOf_append hservice _)
      rw [hc]
      simp only [requestActs_eq_nil_iff.mpr hnone, transportAfter, hnone.1, append_nil]

/-- The first request is acted on, and if the smart socket stays it goes on with packets that were
not needed for the request. -/
theorem feed_complete (env : Env) (online : TransportId → Bool) (t : Option TransportId)
    (h : requestOf (collected ++ ps.flatten) = some service)
    (hnone : requestOf collected = none)
    (hlen : (collected ++ ps.flatten).length ≤ MAX_PAYLOAD) :
    ∃ qs, qs.flatten <:+
        (collected ++ ps.flatten).drop (requestEnd (collected ++ ps.flatten)) ∧
      feed env online t collected ps = requestActs env online t service ++
        match transportAfter env t service with
        | some t => feed env online t [] qs
        | none => [] := by
  induction ps generalizing collected with
  | nil =>
    rw [flatten_nil, append_nil, hnone] at h
    cases h
  | cons p ps ih =>
    rw [flatten_cons, ← append_assoc] at h hlen ⊢
    have hlen' : (collected ++ p).length ≤ MAX_PAYLOAD := by
      rw [length_append] at hlen
      omega
    cases hp : requestOf (collected ++ p) with
    | some service' =>
      -- this packet completes the request
      cases (requestOf_append hp ps.flatten).symm.trans h
      refine ⟨ps, ?_, ?_⟩
      · rw [requestEnd_of_request hp, drop_append_of_le_length
          (requestOf_eq_some.mp hp).2.2.2.1]
        exact suffix_append _ _
      · rw [feed, collect_complete hp hlen']
    | none =>
      obtain ⟨qs, hqs, hfeed⟩ := ih h hp hlen
      refine ⟨qs, hqs, ?_⟩
      rw [feed, collect_waiting hp h hlen']
      exact hfeed

theorem feed_cons (h : requestOf p = some service) (hlen : p.length ≤ MAX_PAYLOAD)
    (ps : List (List Byte)) :
    feed env online t [] (p :: ps) = requestActs env online t service ++
      match transportAfter env t service with
      | some t => feed env online t [] ps
      | none => [] := by
  rw [feed, collect_complete (x := []) h hlen]

/-- All packets but those of the first request are idle. -/
theorem Settled.feed_eq {bytes : List Byte} (h : Settled env online bytes)
    (hps : ps.flatten = bytes) :
    feed env online none [] ps = match requestOf bytes with
      | some service => requestActs env online none service
      | none => [] := by
  have hbytes : requestOf ([] ++ ps.flatten) = requestOf bytes := by rw [nil_append, hps]
  cases hreq : requestOf bytes with
  | none =>
    refine feed_nil fun service hs => ?_
    rw [hbytes, hreq] at hs
    cases hs
  | some service =>
    cases hr : parseHostRequest service with
    | none =>
      have hnil : requestActs env online none service = [] :=
        requestActs_eq_nil_iff.mpr ⟨hr, rfl⟩
      refine Eq.trans (feed_nil fun service' hs => ?_) hnil.symm
      cases hreq.symm.trans (hbytes.symm.trans hs)
      exact ⟨hr, rfl⟩
    | some r =>
      obtain ⟨hlen, hrest⟩ := h service r hreq hr
      obtain ⟨qs, hqs, hfeed⟩ := feed_complete env online none (hbytes.trans hreq) rfl
        (by rw [nil_append, hps]; exact hlen)
      rw [nil_append, hps] at hqs
      rw [hfeed]
      simp only [transportAfter, hr]
      by_cases htr : r.isTransport = true
      · have hidle : feed env online (env.acquireOneTransport r) [] qs = [] :=
          feed_nil fun next hnext => hrest htr _ hqs next hnext
        rw [if_pos htr]
        simp only [Option.or_none, hidle, append_nil]
      · rw [if_neg htr]
        exact append_nil _

theorem split_singles (bytes : List Byte) : Split bytes (bytes.map fun b => [b]) := by
  refine ⟨?_, ?_, ?_⟩
  · rw [← flatMap_def, flatMap_singleton']
  · intro p hp
    obtain ⟨b, -, rfl⟩ := mem_map.mp hp
    exact cons_ne_nil _ _
  · intro p hp
    obtain ⟨b, -, rfl⟩ := mem_map.mp hp
    exact Nat.one_le_ofNat

theorem Split.cons {bytes : List Byte} (h : Split bytes ps) {p : List Byte} (hp : p ≠ [])
    (hlen : p.length ≤ MAX_PAYLOAD) : Split (p ++ bytes) (p :: ps) := by
  refine ⟨by rw [flatten_cons, h.flatten], ?_, ?_⟩
  · rintro x (_ | ⟨_, hx⟩)
    · exact hp
    · exact h.nonempty x hx
  · rintro x (_ | ⟨_, hx⟩)
    · exact hlen
    · exact h.short x hx

theorem split_nil : Split [] [] := ⟨rfl, nofun, nofun⟩

/-- The packets do not matter. -/
def Uniform (env : Env) (online : TransportId → Bool) (bytes : List Byte) : Prop :=
  ∀ ps ps', Split bytes ps → Split bytes ps' →
    feed env online none [] ps = feed env online none [] ps'

/-- A request for the server together with more bytes than a packet has room for: after a first
packet of one byte, a full packet is an overflow. -/
theorem Uniform.length_le {bytes : List Byte} {r : HostRequest} (h : Uniform env online bytes)
    (hreq : requestOf bytes = some service) (hr : parseHostRequest service = some r) :
    bytes.length ≤ MAX_PAYLOAD := by
  by_contra hlong
  have hmax : MAX_PAYLOAD = 4096 := rfl
  obtain ⟨h4, -, hle, -, -⟩ := requestOf_eq_some.mp hreq
  -- the request is in the first packet
  have hfirst : (bytes.take MAX_PAYLOAD).length = MAX_PAYLOAD := by
    rw [length_take]
    omega
  have hcut := take_append_drop MAX_PAYLOAD bytes
  have hend : requestEnd (bytes.take MAX_PAYLOAD) = requestEnd bytes := by
    rw [← requestEnd_append (by omega) (bytes.drop MAX_PAYLOAD), hcut]
  have hwhole : requestOf (bytes.take MAX_PAYLOAD) = some service := by
    rw [← requestOf_append_iff (by omega) (by rw [hend, requestEnd]; omega), hcut]
    exact hreq
  have hsplit : Split bytes (bytes.take MAX_PAYLOAD ::
      (bytes.drop MAX_PAYLOAD).map fun b => [b]) := by
    have hs := (split_singles (bytes.drop MAX_PAYLOAD)).cons
      (ne_nil_of_length_pos (by omega)) hfirst.le
    rwa [hcut] at hs
  -- the second packet is too long
  obtain ⟨b, tail, rfl⟩ := exists_cons_of_ne_nil (ne_nil_of_length_pos (by omega) :
    bytes ≠ [])
  have htail : (tail.take MAX_PAYLOAD).length = MAX_PAYLOAD := by
    rw [length_cons] at hlong
    rw [length_take]
    omega
  have hsplit' : Split (b :: tail) ([b] :: tail.take MAX_PAYLOAD ::
      (tail.drop MAX_PAYLOAD).map fun b => [b]) := by
    have hs := ((split_singles (tail.drop MAX_PAYLOAD)).cons
      (ne_nil_of_length_pos (by omega)) htail.le).cons (cons_ne_nil b [])
        Nat.one_le_ofNat
    rwa [take_append_drop] at hs
  have hover : feed env online none [] ([b] :: tail.take MAX_PAYLOAD ::
      (tail.drop MAX_PAYLOAD).map fun b => [b]) = [] := by
    have hwait : collect [] [b] = .waiting [b] := rfl
    have hclosed : collect [b] (tail.take MAX_PAYLOAD) = .closed := by
      rw [collect, if_pos]
      rw [length_append, htail]
      exact Nat.lt_add_of_pos_left Nat.one_pos
    simp only [feed, hwait, hclosed]
  have hacts := (feed_cons hwhole hfirst.le _).symm.trans (h _ _ hsplit hsplit')
  rw [hover, append_eq_nil_iff, requestActs_eq_nil_iff] at hacts
  exact absurd (hacts.1.1.symm.trans hr) nofun

/-- A request that comes with one for a transport is dropped, and one that comes behind it in a
packet of its own is not. -/
theorem Uniform.idle {bytes : List Byte} {r : HostRequest} (h : Uniform env online bytes)
    (hreq : requestOf bytes = some service) (hr : parseHostRequest service = some r)
    (hlen : bytes.length ≤ MAX_PAYLOAD) (htr : r.isTransport = true) {rest next : List Byte}
    (hrest : rest <:+ bytes.drop (requestEnd bytes)) (hnext : requestOf rest = some next) :
    parseHostRequest next = none ∧ (env.acquireOneTransport r).any online = false := by
  obtain ⟨u, hu⟩ := hrest
  obtain ⟨h4, -, -, hend, -⟩ := requestOf_eq_some.mp hreq
  set first := bytes.take (requestEnd bytes) ++ u with hfirst
  have hbytes : first ++ rest = bytes := by
    rw [hfirst, append_assoc, hu, take_append_drop]
  have hle : requestEnd bytes ≤ first.length := by
    rw [hfirst, length_append, length_take]
    omega
  have hfour : 4 ≤ first.length := le_trans (Nat.le_add_left 4 _) hle
  have hends : requestEnd first = requestEnd bytes := by
    rw [← requestEnd_append hfour rest, hbytes]
  have hservice : requestOf first = some service := by
    rw [← requestOf_append_iff (y := rest) hfour (by rw [hends]; exact hle), hbytes]
    exact hreq
  have hlens : first.length + rest.length ≤ MAX_PAYLOAD := by
    rw [← length_append, hbytes]
    exact hlen
  have hnext4 := (requestOf_eq_some.mp hnext).1
  have hone : Split bytes [bytes] := by
    have hs := split_nil.cons (ne_nil_of_length_pos (by omega)) hlen
    rwa [append_nil] at hs
  have htwo : Split bytes [first, rest] := by
    have hs := (split_nil.cons (p := rest) (ne_nil_of_length_pos (by omega)) (by omega)).cons
      (p := first) (ne_nil_of_length_pos (by omega)) (by omega)
    rwa [append_nil, hbytes] at hs
  have hafter : transportAfter env none service = some (env.acquireOneTransport r) := by
    simp only [transportAfter, hr, if_pos htr, Option.or_none]
  have hsame := h _ _ hone htwo
  rw [feed_cons hreq hlen, feed_cons hservice (by omega), hafter] at hsame
  have hidle := append_cancel_left hsame
  dsimp only at hidle
  rw [feed_cons hnext (by omega), feed] at hidle
  exact requestActs_eq_nil_iff.mp (append_eq_nil_iff.mp hidle.symm).1

theorem uniform_iff (env : Env) (online : TransportId → Bool) (bytes : List Byte) :
    Uniform env online bytes ↔ Settled env online bytes := by
  constructor
  · intro h service r hreq hr
    have hlen := h.length_le hreq hr
    refine ⟨hlen, ?_⟩
    intro htr rest hrest next hnext
    exact h.idle hreq hr hlen htr hrest hnext
  · intro h ps ps' hps hps'
    rw [h.feed_eq hps.flatten, h.feed_eq hps'.flatten]

end Feed

section Server

variable {env : Env} {w w' : Server} {a b : Addr} {s q : ASocket} {p : List Byte}

def Server.deviceOnline (w : Server) (t : TransportId) : Bool := w.connectionState t ≠ .offline

/-- What `smart_socket_enqueue` acts on while the client at `b` has the smart socket at `a` for its
peer and these packets are read from it. -/
def smartActs (env : Env) (a b : Addr) : List (List Byte) → Server → List ServerAct
  | [], _ => []
  | p :: ps, w =>
      match w.socket a, w.socket b with
      | some s, some q =>
          if q.peer = some a then
            (match smartRequest s p with
              | some service => requestActs env w.deviceOnline s.transport service
              | none => []) ++
            match callEnqueue env enqueueDepth a p w with
            | .ok (w', _) => smartActs env a b ps w'
            | .error _ => []
          else []
      | _, _ => []

def Server.Left (a b : Addr) (w : Server) : Prop :=
  ∀ y, w.socket b = some y → y.peer ≠ some a

theorem smartActs_of_left (h : w.Left a b) (ps : List (List Byte)) :
    smartActs env a b ps w = [] := by
  cases ps with
  | nil => rfl
  | cons p ps =>
    rw [smartActs]
    split
    next s q _ hq => rw [if_neg (h q hq)]
    next => rfl

abbrev Leaves (a b : Addr) : Except Fault (Server × ℤ) → Prop :=
  EndsIn (fun _ => True) (fun x => x.1.Left a b)

theorem smartSocketFail_left (h : Graph w) (c : Client w a s b q) :
    Leaves a b (smartSocketFail a w) := by
  obtain ⟨w', hw', hcl⟩ := smartSocketFail_eq h c.smart c.isSmart c.peer c.client
  refine EndsIn.of_eq hw' fun y hy => ?_
  obtain ⟨_, _, hrem⟩ := hcl.left h c.client (.inl rfl) hy
  rw [hrem.peer]
  exact nofun

theorem smartSocketFail_status_left (h : Graph w) (c : Client w a s b q) (hs : StatusOnly b w w') :
    Leaves a b (smartSocketFail a w') :=
  smartSocketFail_left (h.statusOnly hs) (c.status hs)

theorem smartSocketRemote_left (h : Graph w) (c : Client w a s b q) (service : List Byte) :
    Leaves a b (smartSocketRemote service a b w) := by
  rcases smartSocketRemote_cases h c service with hoff | ⟨t, -, -, heq⟩
  · rw [hoff]
    exact smartSocketFail_status_left h c (statusOnly_sendfailmsg w b _)
  refine EndsIn.of_eq heq fun y hy => ?_
  have hx := socket_store ((w.detached a b q).store b { q with peer := none }.notifying) b
    { ({ q with peer := none } : ASocket).notifying with transport := some t }
  cases hx.symm.trans hy
  exact nofun

theorem smartSocketHost_left (h : Graph w) (c : Client w a s b q) (r : HostRequest) (depth : ℕ)
    (htr : r.isTransport = false) :
    Leaves a b (smartSocketHost env (callReady env (callEnqueue env (depth + 1))) r a b w) := by
  have hne : w.nextAddr ≠ a := (h.lt_nextAddr c.smart).ne'
  have hbound : ∀ w' : Server, (∀ x, w'.socket b = some x → x.peer = some w.nextAddr) →
      w'.Left a b := by
    intro w' hw' y hy heq
    exact hne (Option.some.inj ((hw' y hy).symm.trans heq))
  simp only [smartSocketHost, get_eq c.smart, ok_bind]
  split
  · trivial
  rw [if_neg (by rw [← HostRequest.isTransport, htr]; exact Bool.false_ne_true)]
  split
  · exact smartSocketFail_status_left h c (statusOnly_writex w b _)
  cases hostServiceKind r.service with
  | tracker =>
    obtain ⟨w', hw', -, -, hpeer, -⟩ := bindTracker (X := ⟨False, False⟩) env h c depth
    exact EndsIn.of_eq hw' (hbound w' hpeer)
  | localSocket =>
    obtain ⟨w', hw', -, -, hpeer, -⟩ :=
      bindLocal (X := ⟨False, False⟩) env h c (callEnqueue env (depth + 1))
    exact EndsIn.of_eq hw' (hbound w' hpeer)
  | unknown => exact smartSocketFail_status_left h c (statusOnly_sendfailmsg w b _)

theorem smartSocketHost_transport (env : Env) (c : Client w a s b q) (r : HostRequest)
    (ready : Addr → Server → Except Fault Server) (htr : r.isTransport = true) :
    ∃ w', smartSocketHost env ready r a b w = .ok (w', 0) ∧
      StatusOnly b (w.store a { s with
        queue := [[]], transport := (env.acquireOneTransport r).or s.transport }) w' := by
  have hkill : r.service ≠ text "kill" := by
    intro heq
    rw [HostRequest.isTransport, heq] at htr
    exact absurd htr (by decide)
  have hpre : (text "transport").isPrefixOf r.service = true := htr
  simp only [smartSocketHost, get_eq c.smart, ok_bind, if_neg hkill, hpre, if_true]
  cases env.acquireOneTransport r with
  | none => exact ⟨_, rfl, statusOnly_sendfailmsg _ b _⟩
  | some t => exact ⟨_, rfl, statusOnly_writeStatus _ b _⟩

theorem smartSocketCollect_eq (hq : s.queue.length ≤ 1) (hp : p.length ≤ MAX_PAYLOAD) :
    smartSocketCollect s p =
      if (s.queue.flatten ++ p).length > MAX_PAYLOAD then none
      else some (s.queue.flatten ++ p) := by
  rw [smartSocketCollect]
  cases hqueue : s.queue with
  | nil =>
    rw [flatten_nil, nil_append, if_neg (not_lt.mpr hp)]
  | cons first rest =>
    obtain rfl : rest = [] := by
      rw [hqueue, length_cons] at hq
      exact eq_nil_of_length_eq_zero (by omega)
    rw [flatten_singleton, length_append]

theorem smartSocketEnqueue_eq (c : Client w a s b q) (hq : s.queue.length ≤ 1)
    (hp : p.length ≤ MAX_PAYLOAD) (ready : Addr → Server → Except Fault Server) :
    smartSocketEnqueue env ready a p w =
      match collect s.queue.flatten p with
      | .closed =>
        if (s.queue.flatten ++ p).length > MAX_PAYLOAD then smartSocketFail a w
        else smartSocketFail a (w.store a { s with queue := [s.queue.flatten ++ p] })
      | .waiting bytes => .ok (w.store a { s with queue := [bytes] }, 0)
      | .complete service =>
        match parseHostRequest service with
        | some r => smartSocketHost env ready r a b
            (w.store a { s with queue := [s.queue.flatten ++ p] })
        | none => smartSocketRemote service a b
            (w.store a { s with queue := [s.queue.flatten ++ p] }) := by
  simp only [smartSocketEnqueue, get_eq c.smart, ok_bind, smartSocketCollect_eq hq hp, collect,
    c.peer]
  by_cases hlong : (s.queue.flatten ++ p).length > MAX_PAYLOAD
  · simp only [hlong, if_true]
  · simp only [hlong, if_false]
    split
    · rfl
    split
    · rfl
    split <;> rfl

theorem smartRequest_eq_requestOf (hq : s.queue.length ≤ 1) (hp : p.length ≤ MAX_PAYLOAD) :
    smartRequest s p = match collect s.queue.flatten p with
      | .complete service => some service
      | _ => none := by
  rw [smartRequest, smartSocketCollect_eq hq hp, collect]
  by_cases hlong : (s.queue.flatten ++ p).length > MAX_PAYLOAD
  · simp only [hlong, if_true]
  · simp only [hlong, if_false]
    generalize s.queue.flatten ++ p = bytes
    by_cases h4 : bytes.length < 4
    · simp only [h4, true_or, if_true]
    by_cases hlen : unhex (bytes.take 4) < 1 ∨ unhex (bytes.take 4) > 1024
    · simp only [h4, hlen, true_or, or_true, if_true, if_false]
    by_cases hend : unhex (bytes.take 4) + 4 > bytes.length
    · simp only [h4, hlen, hend, or_true, if_true, if_false]
    · simp only [h4, hlen, hend, or_self, if_false]

theorem Client.stored (c : Client w a s b q) (h : Graph w) (queue : List (List Byte))
    (t : Option TransportId) :
    Graph (w.store a { s with queue := queue, transport := t }) ∧
      Client (w.store a { s with queue := queue, transport := t }) a
        { s with queue := queue, transport := t } b q :=
  ⟨(Move.smart (X := ⟨False, False⟩) c.smart c.isSmart queue t).graph h,
    socket_store _ _ _, c.isSmart, c.peer, (socket_store_ne _ _ (c.ne h)).trans c.client⟩

theorem callEnqueue_smart (env : Env) (h : Graph w) (c : Client w a s b q) (hq : s.queue.length ≤ 1)
    (hp : p.length ≤ MAX_PAYLOAD) :
    match collect s.queue.flatten p with
    | .closed => Leaves a b (callEnqueue env enqueueDepth a p w)
    | .waiting bytes =>
      callEnqueue env enqueueDepth a p w = .ok (w.store a { s with queue := [bytes] }, 0)
    | .complete service =>
      match transportAfter env s.transport service with
      | some t => ∃ w', callEnqueue env enqueueDepth a p w = .ok (w', 0) ∧
          StatusOnly b (w.store a { s with queue := [[]], transport := t }) w'
      | none => Leaves a b (callEnqueue env enqueueDepth a p w) := by
  have hcall : callEnqueue env enqueueDepth a p w =
      smartSocketEnqueue env (callReady env (callEnqueue env 1)) a p w := by
    have hsmart : s.enqueue = .smartSocketEnqueue := c.isSmart
    simp only [callEnqueue, enqueueDepth, get_eq c.smart, ok_bind, hsmart]
  obtain ⟨h₁, hc₁⟩ := c.stored h [s.queue.flatten ++ p] s.transport
  rw [hcall, smartSocketEnqueue_eq c hq hp]
  cases collect s.queue.flatten p with
  | closed =>
    dsimp only
    split
    · exact smartSocketFail_left h c
    · exact smartSocketFail_left h₁ hc₁
  | waiting bytes => rfl
  | complete service =>
    dsimp only [transportAfter]
    cases parseHostRequest service with
    | none => exact smartSocketRemote_left h₁ hc₁ service
    | some r =>
      dsimp only
      cases htr : r.isTransport with
      | true =>
        obtain ⟨w', hw', hst⟩ := smartSocketHost_transport env hc₁ r
          (callReady env (callEnqueue env 1)) htr
        rw [store_store] at hst
        exact ⟨w', hw', hst⟩
      | false => exact smartSocketHost_left h₁ hc₁ r 0 htr

/-- The smart socket of the server acts on the requests the reader finds. -/
theorem smartActs_eq (h : Graph w) (c : Client w a s b q) (hq : s.queue.length ≤ 1)
    {ps : List (List Byte)} (hps : ∀ p ∈ ps, p.length ≤ MAX_PAYLOAD) :
    smartActs env a b ps w = feed env w.deviceOnline s.transport s.queue.flatten ps := by
  induction ps generalizing w s with
  | nil => rfl
  | cons p ps ih =>
    have hp := hps p mem_cons_self
    have hps' : ∀ p ∈ ps, p.length ≤ MAX_PAYLOAD := fun p hp => hps p (mem_cons_of_mem _ hp)
    have hstep := callEnqueue_smart env h c hq hp
    simp only [smartActs, c.smart, c.client, if_pos (c.back h), smartRequest_eq_requestOf hq hp,
      feed]
    cases hcol : collect s.queue.flatten p with
    | closed =>
      rw [hcol] at hstep
      cases hcall : callEnqueue env enqueueDepth a p w with
      | error e => rfl
      | ok x =>
        rw [hcall] at hstep
        exact smartActs_of_left hstep ps
    | waiting bytes =>
      rw [hcol] at hstep
      obtain ⟨h₁, hc₁⟩ := c.stored h [bytes] s.transport
      have hnext := ih h₁ hc₁ le_rfl hps'
      rw [flatten_singleton] at hnext
      simp only [hstep]
      exact hnext
    | complete service =>
      rw [hcol] at hstep
      refine congrArg (requestActs env w.deviceOnline s.transport service ++ ·) ?_
      cases hafter : transportAfter env s.transport service with
      | none =>
        simp only [hafter] at hstep
        cases hcall : callEnqueue env enqueueDepth a p w with
        | error e => rfl
        | ok x =>
          rw [hcall] at hstep
          exact smartActs_of_left hstep ps
      | some t =>
        simp only [hafter] at hstep
        obtain ⟨w', hcall, hst⟩ := hstep
        obtain ⟨h₁, hc₁⟩ := c.stored h [[]] t
        have hnext := ih (h₁.statusOnly hst) (hc₁.status hst) le_rfl hps'
        have honline : w'.deviceOnline = w.deviceOnline := by
          obtain ⟨l, ws, _, rfl⟩ := hst
          rfl
        rw [honline] at hnext
        simp only [hcall]
        exact hnext

/-- The requests of a new client do not depend on the packets they come in exactly when everything
behind the first request is idle. -/
theorem smart_requests_iff (env : Env) (h : Graph w) (c : Client w a s b q)
    (hqueue : s.queue = []) (hnew : s.transport = none) (bytes : List Byte) :
    (∀ ps ps', Split bytes ps → Split bytes ps' →
      smartActs env a b ps w = smartActs env a b ps' w) ↔ Settled env w.deviceOnline bytes := by
  have hacts : ∀ ps, Split bytes ps →
      smartActs env a b ps w = feed env w.deviceOnline none [] ps := by
    intro ps hps
    rw [smartActs_eq h c (by rw [hqueue]; exact Nat.zero_le _) hps.short, hnew, hqueue, flatten_nil]
  rw [← uniform_iff]
  constructor
  · intro hsame ps ps' hps hps'
    rw [← hacts ps hps, ← hacts ps' hps', hsame ps ps' hps hps']
  · intro hsame ps ps' hps hps'
    rw [hacts ps hps, hacts ps' hps', hsame ps ps' hps hps']

def versionEnv : Env := { plainEnv with handleHostRequest := fun r => r.service = text "version" }

theorem smart_requests_version : ∃ w s q, exec (step true false) Server.init
      [input .acceptSmart [] []] = some w ∧ Client w 1 s 0 q ∧
    smartActs versionEnv 1 0 [text "000", text "chost:vers", text "ion"] w =
      smartActs versionEnv 1 0 [text "000chost:version"] w := by
  obtain ⟨w, s, q, hw, c, hqueue, hnew⟩ : ∃ w s q, exec (step true false) Server.init
      [input .acceptSmart [] []] = some w ∧ Client w 1 s 0 q ∧ s.queue = [] ∧
        s.transport = none :=
    ⟨_, _, _, rfl, ⟨rfl, rfl, rfl, rfl⟩, rfl, rfl⟩
  have hsettled : Settled versionEnv w.deviceOnline (text "000chost:version") := by
    intro service r hreq hr
    have hservice : requestOf (text "000chost:version") = some (text "host:version") := by decide
    cases hservice.symm.trans hreq
    have hversion : parseHostRequest (text "host:version") =
        some ⟨text "version", .kTransportAny, none⟩ := by decide
    cases hversion.symm.trans hr
    exact ⟨by decide, fun htr => absurd htr (by decide)⟩
  refine ⟨w, s, q, hw, c,
    (smart_requests_iff versionEnv (Graph.run (run_of_exec (fun _ _ _ => trivial) hw)) c hqueue hnew
    (text "000chost:version")).mpr hsettled _ _ ⟨rfl, by decide, by decide⟩
    ⟨rfl, by decide, by decide⟩⟩

/-- A client asks for a transport and for the version without waiting for the answer: in one packet
the second request is lost, in two it is not. -/
theorem smart_request_dropped : ∃ w, exec (step true false) Server.init
      [input .acceptSmart [] []] = some w ∧
    smartActs versionEnv 1 0 [text "0012host:transport-any" ++ text "000chost:version"] w =
      [.handleHostRequest ⟨text "transport-any", .kTransportAny, none⟩] ∧
    smartActs versionEnv 1 0 [text "0012host:transport-any", text "000chost:version"] w =
      [.handleHostRequest ⟨text "transport-any", .kTransportAny, none⟩,
        .handleHostRequest ⟨text "version", .kTransportAny, none⟩] := by
  refine ⟨_, rfl, ?_⟩
  decide +kernel

end Server

end PaxAdb.Sockets
