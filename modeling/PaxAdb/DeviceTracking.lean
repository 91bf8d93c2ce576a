import PaxAdb.LifecycleBook
import PaxAdb.TransportLinks

/-!
# What the device trackers are told

A client of `host:track-devices` is sent the short list of devices when its tracker is ready and
again whenever `update_transports` is called. The list is read off `transport_list` and the
connection states of the transports, and not everything that changes it calls `update_transports`.
A tracker is up to date as long as none of the events occurs that change the list in silence.
-/

namespace PaxAdb.Tracking

open Function (update update_self update_of_ne)
open Lifecycle (World Ref TransportId)
open Sockets (ConnectionState Packet Command bannerState text)
open Ring Runs Option List

structure DeviceTracker where
  addr : ℕ
  updateNeeded : Bool
  /-- what `device_tracker_send` has queued to the client, the oldest message first -/
  messages : List (List Byte)
  deriving DecidableEq

structure State where
  world : World
  connectionState : TransportId → ConnectionState
  deviceTrackerList : List DeviceTracker
  nextTracker : ℕ

def State.init : State := ⟨World.init, fun _ => .offline, [], 0⟩

section Listing

def statename : ConnectionState → List Byte
  | .offline => text "offline"
  | .bootloader => text "bootloader"
  | .device => text "device"
  | .host => text "host"
  | .recovery => text "recovery"
  | .sideload => text "sideload"
  | .noperm => text "no permissions"
  | .unauthorized => text "unauthorized"

def formatTransport (serial : Option (List Byte)) (state : ConnectionState) : List Byte :=
  let serial := match serial with
    | none | some [] => text "????????????"
    | some serial => serial
  serial ++ [0x09] ++ statename state ++ [0x0a]

structure Listing where
  bytes : List Byte
  complete : Bool
  deriving DecidableEq

variable (w : World) (state : TransportId → ConnectionState)

/-- The loop of `list_transports` at a link, with `room` bytes left. There is no result when it
would read something that is not a transport, or not any more. -/
def listLines : ℕ → Ref → ℕ → Option Listing
  | 0, _, _ => some ⟨[], false⟩
  | _ + 1, .transportList, _ => some ⟨[], true⟩
  | _ + 1, .pendingList, _ => none
  | fuel + 1, .node t, room =>
      match w.transport t with
      | none => none
      | some x =>
          let line := formatTransport x.serial (state t)
          if room ≤ line.length then some ⟨[], false⟩
          else (listLines fuel (w.links.next (.node t)) (room - line.length)).map fun rest =>
            ⟨line ++ rest.bytes, rest.complete⟩

/-- As every line takes up room, the loop ends before the fuel does. -/
def listTransports (bufsize : ℕ) : Option Listing :=
  listLines w state (bufsize + 1) (w.links.next .transportList) bufsize

def listTransportsMsg (listing : Listing) : List Byte :=
  Sockets.Server.hex4 listing.bytes.length ++ listing.bytes

variable {w state}

theorem formatTransport_pos (serial : Option (List Byte)) (c : ConnectionState) :
    0 < (formatTransport serial c).length := by
  simp only [formatTransport, length_append, length_cons, length_nil]
  omega

/-- The list depends on the links, serial numbers and states of what the loop may meet. -/
theorem listTransports_congr {w' : World} {state' : TransportId → ConnectionState} {P : Ref → Prop}
    (hhead : P .transportList) (hnext : ∀ r, P r → P (w.links.next r))
    (hlinks : ∀ r, P r → w'.links.next r = w.links.next r)
    (hnode : ∀ t, P (.node t) → (w'.transport t).map (·.serial) = (w.transport t).map (·.serial) ∧
      state' t = state t) (bufsize : ℕ) :
    listTransports w' state' bufsize = listTransports w state bufsize := by
  have hlines : ∀ (fuel : ℕ) (r : Ref) (room : ℕ), P r →
      listLines w' state' fuel r room = listLines w state fuel r room := by
    intro fuel
    induction fuel with
    | zero => exact fun _ _ _ => rfl
    | succ fuel ih =>
      intro r room hr
      cases r with
      | pendingList => rfl
      | transportList => rfl
      | node t =>
        obtain ⟨hserial, hstate⟩ := hnode t hr
        cases hx : w.transport t with
        | none =>
          rw [hx, map_none, map_eq_none_iff] at hserial
          simp only [listLines, hserial, hx]
        | some x =>
          rw [hx, map_some] at hserial
          obtain ⟨y, hy, hsame⟩ := map_eq_some_iff.mp hserial
          simp only [listLines, hy, hx, hsame, hstate, hlinks _ hr, ih _ _ (hnext _ hr)]
  rw [listTransports, listTransports, hlinks _ hhead, hlines _ _ _ (hnext _ hhead)]

end Listing

namespace State

variable (s : State)

def listing : Option Listing := listTransports s.world s.connectionState 1020

section Trackers

/-- `device_tracker_send`; when the connection to the client fails, its socket closes the
tracker. -/
def deviceTrackerSend (fails : Bool) (buffer : List Byte) (tracker : DeviceTracker) :
    Option DeviceTracker :=
  if fails then none else some { tracker with messages := tracker.messages ++ [buffer] }

def createDeviceTracker : State :=
  { s with
    deviceTrackerList := ⟨s.nextTracker, true, []⟩ :: s.deviceTrackerList
    nextTracker := s.nextTracker + 1 }

def deviceTrackerReady (addr : ℕ) (fails : Bool) : Option State :=
  if s.deviceTrackerList.any (fun tracker => tracker.addr = addr && tracker.updateNeeded) then
    s.listing.map fun l =>
      { s with deviceTrackerList := s.deviceTrackerList.filterMap fun tracker =>
          if tracker.addr = addr ∧ tracker.updateNeeded = true then
            deviceTrackerSend fails (listTransportsMsg l) { tracker with updateNeeded := false }
          else some tracker }
  else some s

def deviceTrackerClose (addr : ℕ) : State :=
  { s with deviceTrackerList := s.deviceTrackerList.filter (·.addr ≠ addr) }

def updateTransports (fails : ℕ → Bool) : Option State :=
  s.listing.map fun l =>
    { s with deviceTrackerList := s.deviceTrackerList.filterMap fun tracker =>
        deviceTrackerSend (fails tracker.addr) (listTransportsMsg l) tracker }

end Trackers

section Packets

def setConnectionState (t : TransportId) (c : ConnectionState) : State :=
  { s with connectionState := update s.connectionState t c }

def parseBanner (banner : List Byte) (t : TransportId) (fails : ℕ → Bool) : Option State :=
  let s := s.setConnectionState t (bannerState banner)
  if bannerState banner = .host then some s else s.updateTransports fails

def handlePacket (p : Packet) (t : TransportId) (fails : ℕ → Bool) : Option State :=
  match p.command with
  | .aSync => if p.arg0 ≠ 0 then some s else some (s.setConnectionState t .offline)
  | .aCnxn =>
      let s := if s.connectionState t ≠ .offline then s.setConnectionState t .offline else s
      s.parseBanner p.data t fails
  | .aAuth =>
      if p.arg0 = Sockets.ADB_AUTH_TOKEN then some (s.setConnectionState t .unauthorized)
      else some s
  | _ => some s

def takesPackets (t : TransportId) : Bool :=
  (s.world.transport t).any (fun x => !x.noperm) &&
    (s.world.status t = .listed || s.world.status t = .unregistered)

end Packets

def registered : Lifecycle.Action → State
  | .registerSocket .. => s.setConnectionState s.world.nextTransport .offline
  | .registerUsb _ writeable =>
      s.setConnectionState s.world.nextTransport (if writeable then .offline else .noperm)
  | _ => s

def unregisterUsbTransport (t : TransportId) : State :=
  { s with world := { s.world with
      links := s.world.links.unlink (.node t)
      status := update s.world.status t .unregistered } }

end State

/-- What the threads do, and the handlers of the event loop. The last argument says which
connections to clients fail when something is sent on them. -/
inductive Action where
  | life (a : Lifecycle.Action) (fails : ℕ → Bool)
  | unregisterUsbTransport (t : TransportId)
  | packet (p : Packet) (t : TransportId) (fails : ℕ → Bool)
  /-- a client asks for `host:track-devices` -/
  | trackDevices (fails : Bool)
  | ready (addr : ℕ) (fails : Bool)
  | close (addr : ℕ)

def endsRegistration : Lifecycle.Action → Bool
  | .linkTransport | .freeTransport => true
  | _ => false

def step (s : State) : Action → Option State
  | .life a fails =>
      (Lifecycle.step s.world a).bind fun w =>
        let s := { s.registered a with world := w }
        if endsRegistration a then s.updateTransports fails else some s
  | .unregisterUsbTransport t =>
      if .node t ∈ s.world.listed .transportList ∧ s.connectionState t = .noperm then
        some (s.unregisterUsbTransport t)
      else none
  | .packet p t fails =>
      if s.world.main = .idle ∧ s.takesPackets t = true then s.handlePacket p t fails else none
  | .trackDevices fails =>
      if s.world.main = .idle then
        s.createDeviceTracker.deviceTrackerReady s.nextTracker fails
      else none
  | .ready addr fails =>
      if s.world.main = .idle then s.deviceTrackerReady addr fails else none
  | .close addr => if s.world.main = .idle then some (s.deviceTrackerClose addr) else none

def Tells (addr : ℕ) (s : State) : Action → Prop
  | .life a _ => endsRegistration a = true
  | .packet p _ _ => p.command = .aCnxn ∧ bannerState p.data ≠ .host
  | .trackDevices _ => addr = s.nextTracker
  | _ => False

/-- The state that a packet sets without a call of `update_transports`. -/
def quietState (p : Packet) (c : ConnectionState) : ConnectionState :=
  match p.command with
  | .aSync => if p.arg0 ≠ 0 then c else .offline
  | .aAuth => if p.arg0 = Sockets.ADB_AUTH_TOKEN then .unauthorized else c
  | .aCnxn => if bannerState p.data = .host then .host else c
  | _ => c

def State.OnList (s : State) (t : TransportId) : Prop :=
  ∃ n, s.world.links.next^[n] .transportList = .node t

/-- The events that change the list while somebody tracks it, and do not tell: an administrative
disconnect, and a packet that changes the state of a transport on the list. The removal of a USB
device without permissions is excluded throughout. -/
def Silent (s : State) : Action → Prop
  | .life (.disconnect _) _ => s.deviceTrackerList ≠ []
  | .life .disconnectAll _ => s.deviceTrackerList ≠ [] ∧
      ∃ t x, .node t ∈ s.world.listed .transportList ∧ s.world.transport t = some x ∧
        s.world.type t = .tcp ∧ x.adbPort = 0
  | .unregisterUsbTransport _ => True
  | .packet p t _ => s.deviceTrackerList ≠ [] ∧ s.OnList t ∧
      quietState p (s.connectionState t) ≠ s.connectionState t
  | _ => False

/-- The last message queued to the tracker is the list as it is now, unless that is too long. -/
def State.UpToDate (s : State) (tracker : DeviceTracker) : Prop :=
  ∀ l, s.listing = some l → l.complete = true →
    tracker.messages.getLast? = some (listTransportsMsg l)

variable {s s' : State} {a : Action} {x : DeviceTracker}

section Steps

/-- Every tracker has been made ready in the handler that created it. -/
structure State.Settled (s : State) : Prop where
  ready : ∀ x ∈ s.deviceTrackerList, x.updateNeeded = false
  old : ∀ x ∈ s.deviceTrackerList, x.addr < s.nextTracker

inductive Outcome (s : State) (a : Action) (s' : State) (x : DeviceTracker) : Prop where
  | told (l : Listing) (ht : Tells x.addr s a) (hl : s'.listing = some l)
      (hlast : x.messages.getLast? = some (listTransportsMsg l)) (hr : x.updateNeeded = false)
      (hold : x.addr < s'.nextTracker)
  | left (ht : ¬ Tells x.addr s a) (hx : x ∈ s.deviceTrackerList)
      (hold : s.nextTracker ≤ s'.nextTracker)

theorem updateTransports_cases {fails : ℕ → Bool} (h : s.Settled)
    (hs : s.updateTransports fails = some s') (hx : x ∈ s'.deviceTrackerList) :
    ∃ l, s'.listing = some l ∧ x.messages.getLast? = some (listTransportsMsg l) ∧
      x.updateNeeded = false ∧ x.addr < s'.nextTracker := by
  obtain ⟨l, hl, rfl⟩ := map_eq_some_iff.mp hs
  obtain ⟨y, hy, hsend⟩ := mem_filterMap.mp hx
  unfold State.deviceTrackerSend at hsend
  split at hsend
  · cases hsend
  · cases hsend
    exact ⟨l, hl, by simp, h.ready y hy, h.old y hy⟩

theorem life_outcome {b : Lifecycle.Action} {fails : ℕ → Bool} (h : s.Settled)
    (hs : step s (.life b fails) = some s') (hx : x ∈ s'.deviceTrackerList) :
    Outcome s (.life b fails) s' x := by
  obtain ⟨w, _, hs⟩ := bind_eq_some_iff.mp hs
  have hreg : (s.registered b).deviceTrackerList = s.deviceTrackerList ∧
      (s.registered b).nextTracker = s.nextTracker := by
    cases b <;> exact ⟨rfl, rfl⟩
  have hset : State.Settled { s.registered b with world := w } :=
    ⟨hreg.1 ▸ h.ready, hreg.1 ▸ hreg.2 ▸ h.old⟩
  dsimp only at hs
  split at hs
  next hends =>
    obtain ⟨l, hl, hlast, hr, hold⟩ := updateTransports_cases hset hs hx
    exact .told l hends hl hlast hr hold
  next hends =>
    cases hs
    exact .left hends (hreg.1 ▸ hx) hreg.2.ge

section Packets

variable {p : Packet} {t : TransportId} {c c' : ConnectionState} {fails : ℕ → Bool}

theorem setConnectionState_self : s.setConnectionState t (s.connectionState t) = s := by
  simp [State.setConnectionState]

theorem setConnectionState_idem :
    (s.setConnectionState t c).setConnectionState t c' = s.setConnectionState t c' := by
  simp [State.setConnectionState]

/-- A packet sets the state of its transport, in silence unless it is a banner of a device. -/
theorem handlePacket_cases (hs : s.handlePacket p t fails = some s') :
    ((p.command = .aCnxn ∧ bannerState p.data ≠ .host) ∧
      (s.setConnectionState t (bannerState p.data)).updateTransports fails = some s') ∨
    ¬(p.command = .aCnxn ∧ bannerState p.data ≠ .host) ∧
      s' = s.setConnectionState t (quietState p (s.connectionState t)) := by
  cases hp : p.command with
  | aCnxn =>
    have hset : State.setConnectionState (if s.connectionState t ≠ .offline then
        s.setConnectionState t .offline else s) t (bannerState p.data) =
        s.setConnectionState t (bannerState p.data) := by
      split
      · exact setConnectionState_idem
      · rfl
    simp only [State.handlePacket, hp, State.parseBanner, hset] at hs
    by_cases hhost : bannerState p.data = .host
    · rw [if_pos hhost] at hs
      cases hs
      exact Or.inr ⟨by simp [hhost], by simp [quietState, hp, hhost]⟩
    · rw [if_neg hhost] at hs
      exact Or.inl ⟨⟨rfl, hhost⟩, hs⟩
  | aSync =>
    simp only [State.handlePacket, hp] at hs
    refine Or.inr ⟨by simp, ?_⟩
    simp only [quietState, hp]
    split at hs <;> cases hs
    next h0 => rw [if_pos h0, setConnectionState_self]
    next h0 => rw [if_neg h0]
  | aAuth =>
    simp only [State.handlePacket, hp] at hs
    refine Or.inr ⟨by simp, ?_⟩
    simp only [quietState, hp]
    split at hs <;> cases hs
    next htoken => rw [if_pos htoken]
    next htoken => rw [if_neg htoken, setConnectionState_self]
  | _ =>
    simp only [State.handlePacket, hp, some.injEq] at hs
    refine Or.inr ⟨by simp, ?_⟩
    simp only [quietState, hp, setConnectionState_self, hs]

theorem packet_outcome (h : s.Settled) (hs : s.handlePacket p t fails = some s')
    (hx : x ∈ s'.deviceTrackerList) : Outcome s (.packet p t fails) s' x := by
  rcases handlePacket_cases hs with ⟨ht, hs⟩ | ⟨ht, rfl⟩
  · have hset : (s.setConnectionState t (bannerState p.data)).Settled := ⟨h.ready, h.old⟩
    obtain ⟨l, hl, hlast, hr, hold⟩ := updateTransports_cases hset hs hx
    exact .told l ht hl hlast hr hold
  · exact .left ht hx le_rfl

end Packets

theorem deviceTrackerReady_settled (h : s.Settled) (addr : ℕ) (fails : Bool) :
    s.deviceTrackerReady addr fails = some s := by
  refine if_neg fun hany => ?_
  obtain ⟨y, hy, hneeds⟩ := any_eq_true.mp hany
  simp [h.ready y hy] at hneeds

theorem trackDevices_outcome {fails : Bool} (h : s.Settled)
    (hs : s.createDeviceTracker.deviceTrackerReady s.nextTracker fails = some s')
    (hx : x ∈ s'.deviceTrackerList) : Outcome s (.trackDevices fails) s' x := by
  have hany : s.createDeviceTracker.deviceTrackerList.any
      (fun tracker => tracker.addr = s.nextTracker && tracker.updateNeeded) = true := by
    simp [State.createDeviceTracker]
  rw [State.deviceTrackerReady, if_pos hany] at hs
  obtain ⟨l, hl, rfl⟩ := map_eq_some_iff.mp hs
  obtain ⟨y, hy, hsend⟩ := mem_filterMap.mp hx
  rcases mem_cons.mp hy with rfl | hy
  · rw [if_pos ⟨rfl, rfl⟩] at hsend
    unfold State.deviceTrackerSend at hsend
    split at hsend
    · cases hsend
    · cases hsend
      exact .told l rfl hl rfl rfl (Nat.lt_succ_self _)
  · have hlt := h.old y hy
    rw [if_neg fun hc => hlt.ne hc.1] at hsend
    cases hsend
    exact .left hlt.ne hy (Nat.le_succ _)

theorem step_outcome (h : s.Settled) (hs : step s a = some s') (hx : x ∈ s'.deviceTrackerList) :
    Outcome s a s' x := by
  cases a with
  | life b fails => exact life_outcome h hs hx
  | unregisterUsbTransport t =>
    obtain ⟨_, hs⟩ := ite_none_right_eq_some.mp hs
    cases hs
    exact .left id hx le_rfl
  | packet p t fails =>
    obtain ⟨_, hs⟩ := ite_none_right_eq_some.mp hs
    exact packet_outcome h hs hx
  | trackDevices fails =>
    obtain ⟨_, hs⟩ := ite_none_right_eq_some.mp hs
    exact trackDevices_outcome h hs hx
  | ready addr fails =>
    obtain ⟨_, hs⟩ := ite_none_right_eq_some.mp hs
    rw [deviceTrackerReady_settled h] at hs
    cases hs
    exact .left id hx le_rfl
  | close addr =>
    obtain ⟨_, hs⟩ := ite_none_right_eq_some.mp hs
    cases hs
    exact .left id (mem_filter.mp hx).1 le_rfl

theorem State.Settled.step (h : s.Settled) (hs : Tracking.step s a = some s') : s'.Settled := by
  refine ⟨fun x hx => ?_, fun x hx => ?_⟩
  · cases step_outcome h hs hx with
    | told l ht hl hlast hr hold => exact hr
    | left ht hx hold => exact h.ready x hx
  · cases step_outcome h hs hx with
    | told l ht hl hlast hr hold => exact hold
    | left ht hx hold => exact (h.old x hx).trans_le hold

end Steps

section Lists

open Lifecycle

variable {v v' : View} {w w' : World} {b : Lifecycle.Action} {t : TransportId}

/-- The step leaves the transports alone that have been on `transport_list`, and does not end the
removal of one. -/
structure Unlisted (v v' : View) : Prop where
  next : ∀ r, v.Master r → v'.links.next r = v.links.next r
  serial : ∀ t, v.status t ≠ .unborn → v'.serial t = v.serial t
  main : ∀ t, v.main = .freeTransport t → v'.main = .freeTransport t

theorem unlisted_register (hb : Book v) (type : TransportType) (port : ℕ)
    (serial : Option (List Byte)) : Unlisted v (v.register type port serial) := by
  have hborn : v.status v.nextTransport = .unborn := hb.fresh _ le_rfl
  obtain ⟨P, hring, hP⟩ := hb.pendingRing
  refine ⟨fun r hr => (insertTail_pending_keeps hP hring hborn hr).1, fun t ht => ?_, fun _ => id⟩
  have hne : t ≠ v.nextTransport := fun heq => ht (heq ▸ hborn)
  exact update_of_ne hne _ _

theorem unlisted_plain (hb : Book v) (h : Move View.Master v .plain v') : Unlisted v v' := by
  cases h with
  | register type port serial => exact unlisted_register hb type port serial
  | quiet | refuse | post | threadStep | threadUnref =>
    exact ⟨fun _ _ => rfl, fun _ _ => rfl, fun _ => id⟩
  | receive hm | start hm | receiveRemoval hm | closeFd hm | kick hm | skipKick hm | callKick hm =>
    exact ⟨fun _ _ => rfl, fun _ _ => rfl, by simp [hm]⟩

theorem unlisted_release (hm : v.main = .unref t) (h : Move View.Master v (.release t) v') :
    Unlisted v v' := by
  cases h with
  | unref | dangle => exact ⟨fun _ _ => rfl, fun _ _ => rfl, by simp [hm]⟩
  | drop hidle => cases hm.symm.trans hidle

def ChangesList : Lifecycle.Action → Prop
  | .linkTransport | .unlinkTransport | .freeTransport | .disconnect _ | .disconnectAll => True
  | _ => False

theorem unlisted_step (hb : Book w.view) (hs : Lifecycle.step w b = some w')
    (h : ¬ChangesList b) : Unlisted w.view w'.view := by
  have hmove := move_of_step (visits_master fun _ hI => hI.closed) hb hs
    fun hall => h (hall ▸ trivial)
  cases b with
  | linkTransport | unlinkTransport | freeTransport | disconnect serial | disconnectAll =>
    exact absurd trivial h
  | mainUnref =>
    simp only [Lifecycle.step] at hs
    split at hs
    next t hm =>
      simp only [Action.kind, hm] at hmove
      exact unlisted_release hm hmove
    · cases hs
  | _ => exact unlisted_plain hb hmove

theorem unregisterAllLoop_none {fuel : ℕ} {r : Ref}
    (h : ∀ t x, .node t ∈ w.links.walk .transportList fuel r → w.transport t = some x →
      ¬(w.type t = .tcp ∧ x.adbPort = 0)) : World.unregisterAllLoop fuel r w = w := by
  induction fuel generalizing r with
  | zero => rfl
  | succ fuel ih =>
    cases r with
    | pendingList => rfl
    | transportList => rfl
    | node t =>
      rw [Links.walk, if_neg (by simp)] at h
      rw [World.unregisterAllLoop]
      cases hx : w.transport t with
      | none => rfl
      | some x =>
        simp only [World.unregisterTcp, if_neg (h t x mem_cons_self hx)]
        exact ih fun u y hu => h u y (mem_cons_of_mem _ hu)

end Lists

section Silence

open Lifecycle (Book)

theorem listing_life {b : Lifecycle.Action} {w : World} (hb : Book s.world.view)
    (hs : Lifecycle.step s.world b = some w) (h : ¬ChangesList b) :
    State.listing { s.registered b with world := w } = s.listing := by
  have hkept := unlisted_step hb hs h
  refine listTransports_congr (P := s.world.view.Master) trivial (fun r hr => (hb.closed r hr).1)
    hkept.next (fun t ht => ⟨hkept.serial t ht.1, ?_⟩) 1020
  have hne : t ≠ s.world.nextTransport := fun heq => ht.1 (heq ▸ hb.fresh _ le_rfl)
  cases b <;> first | rfl | exact update_of_ne hne _ _

theorem updateTransports_world {fails : ℕ → Bool} (hs : s.updateTransports fails = some s') :
    s'.world = s.world := by
  obtain ⟨l, -, rfl⟩ := map_eq_some_iff.mp hs
  rfl

section Packets

variable {p : Packet} {t : TransportId} {fails : ℕ → Bool}
  (hs : s.handlePacket p t fails = some s')

include hs

theorem handlePacket_world : s'.world = s.world := by
  rcases handlePacket_cases hs with ⟨-, hs⟩ | ⟨-, rfl⟩
  · exact (updateTransports_world hs).trans rfl
  · rfl

theorem listing_packet (ht : ¬(p.command = .aCnxn ∧ bannerState p.data ≠ .host))
    (hquiet : ¬(s.OnList t ∧ quietState p (s.connectionState t) ≠ s.connectionState t)) :
    s'.listing = s.listing := by
  obtain ⟨-, rfl⟩ := (handlePacket_cases hs).resolve_left fun h => ht h.1
  refine listTransports_congr (P := fun r => ∃ n, s.world.links.next^[n] .transportList = r)
    ⟨0, rfl⟩ ?_ (fun _ _ => rfl) (fun u hu => ⟨rfl, ?_⟩) 1020
  · rintro r ⟨n, rfl⟩
    exact ⟨n + 1, Function.iterate_succ_apply' ..⟩
  · by_cases hut : u = t
    · subst hut
      exact (update_self ..).trans (not_not.mp fun hne => hquiet ⟨hu, hne⟩)
    · exact update_of_ne hut _ _

end Packets

theorem deviceTrackerReady_listing {addr : ℕ} {fails : Bool}
    (hs : s.deviceTrackerReady addr fails = some s') :
    s'.world = s.world ∧ s'.connectionState = s.connectionState := by
  unfold State.deviceTrackerReady at hs
  split at hs
  · obtain ⟨l, -, rfl⟩ := map_eq_some_iff.mp hs
    exact ⟨rfl, rfl⟩
  · cases hs
    exact ⟨rfl, rfl⟩

/-- The main loop has taken a transport off the list and will tell when it has freed it. -/
def State.Removing (s : State) : Prop := ∃ t, s.world.main = .freeTransport t

theorem not_removing (h : s.world.main = .idle) : ¬s.Removing := by simp [State.Removing, h]

structure State.Told (s : State) : Prop where
  book : Book s.world.view
  settled : s.Settled
  told : ¬s.Removing → ∀ x ∈ s.deviceTrackerList, ∃ l, s.listing = some l ∧
    x.messages.getLast? = some (listTransportsMsg l)

theorem told_life {b : Lifecycle.Action} {fails : ℕ → Bool} (h : s.Told)
    (hquiet : ¬Silent s (.life b fails)) (hs : step s (.life b fails) = some s')
    (hends : ¬endsRegistration b = true) (hx : x ∈ s.deviceTrackerList)
    (hnot : ¬s'.Removing) : s'.listing = s.listing ∧ ¬s.Removing := by
  have hsome : s.deviceTrackerList ≠ [] := ne_nil_of_mem hx
  obtain ⟨w, hw, hs⟩ := bind_eq_some_iff.mp hs
  dsimp only at hs
  rw [if_neg hends] at hs
  cases hs
  by_cases hchange : ChangesList b
  · cases b with
    | linkTransport | freeTransport => exact absurd rfl hends
    | unlinkTransport =>
      refine absurd ?_ hnot
      simp only [Lifecycle.step] at hw
      split at hw <;> cases hw
      next t hm => exact ⟨t, rfl⟩
    | disconnect serial => exact absurd hsome hquiet
    | disconnectAll =>
      simp only [Lifecycle.step] at hw
      split at hw <;> cases hw
      next hm =>
        have hsame : s.world.unregisterAllTcpTransports = s.world :=
          unregisterAllLoop_none fun t x ht hx' htcp => hquiet ⟨hsome, t, x, ht, hx', htcp⟩
        rw [hsame]
        exact ⟨rfl, not_removing hm⟩
    | _ => exact absurd hchange id
  · refine ⟨listing_life h.book hw hchange, ?_⟩
    rintro ⟨t, hf⟩
    exact hnot ⟨t, (unlisted_step h.book hw hchange).main t hf⟩

theorem told_book (h : s.Told) (hquiet : ¬Silent s a) (hs : step s a = some s') :
    Book s'.world.view := by
  have hsame : s'.world = s.world → Book s'.world.view := fun hw => hw ▸ h.book
  cases a with
  | life b fails =>
    obtain ⟨w, hw, hs⟩ := bind_eq_some_iff.mp hs
    have hbook := Lifecycle.book_step h.book hw
    dsimp only at hs
    split at hs
    · rw [updateTransports_world hs]
      exact hbook
    · cases hs
      exact hbook
  | unregisterUsbTransport t => exact absurd trivial hquiet
  | packet p t fails => exact hsame (handlePacket_world (ite_none_right_eq_some.mp hs).2)
  | trackDevices | ready =>
    exact hsame (deviceTrackerReady_listing (ite_none_right_eq_some.mp hs).2).1
  | close addr =>
    obtain ⟨-, hs⟩ := ite_none_right_eq_some.mp hs
    cases hs
    exact h.book

/-- A step that does not tell the tracker leaves the list as it is. -/
theorem listing_of_left (h : s.Told) (hquiet : ¬Silent s a) (hs : step s a = some s')
    (ht : ¬Tells x.addr s a) (hx : x ∈ s.deviceTrackerList) (hnot : ¬s'.Removing) :
    s'.listing = s.listing ∧ ¬s.Removing := by
  have hready : ∀ {u : State} {addr : ℕ} {fails : Bool}, u.listing = s.listing →
      u.deviceTrackerReady addr fails = some s' → s'.listing = s.listing := by
    intro u addr fails hu hs
    obtain ⟨hworld, hstate⟩ := deviceTrackerReady_listing hs
    rw [State.listing, hworld, hstate]
    exact hu
  cases a with
  | life b fails => exact told_life h hquiet hs ht hx hnot
  | unregisterUsbTransport t => exact absurd trivial hquiet
  | packet p t fails =>
    obtain ⟨⟨hidle, -⟩, hs⟩ := ite_none_right_eq_some.mp hs
    refine ⟨listing_packet hs ht fun hchange => hquiet ⟨?_, hchange⟩, not_removing hidle⟩
    exact ne_nil_of_mem hx
  | trackDevices fails =>
    obtain ⟨hidle, hs⟩ := ite_none_right_eq_some.mp hs
    exact ⟨hready (u := s.createDeviceTracker) rfl hs, not_removing hidle⟩
  | ready addr fails =>
    obtain ⟨hidle, hs⟩ := ite_none_right_eq_some.mp hs
    exact ⟨hready rfl hs, not_removing hidle⟩
  | close addr =>
    obtain ⟨hidle, hs⟩ := ite_none_right_eq_some.mp hs
    cases hs
    exact ⟨rfl, not_removing hidle⟩

theorem State.Told.step (h : s.Told) (hquiet : ¬Silent s a) (hs : Tracking.step s a = some s') :
    s'.Told := by
  refine ⟨told_book h hquiet hs, h.settled.step hs, fun hnot x hx => ?_⟩
  cases step_outcome h.settled hs hx with
  | told l ht hl hlast => exact ⟨l, hl, hlast⟩
  | left ht hx =>
    obtain ⟨hsame, hbefore⟩ := listing_of_left h hquiet hs ht hx hnot
    rw [hsame]
    exact h.told hbefore x hx

/-- As long as nothing changes the list in silence, every tracker has been sent the list as it is
whenever the event loop is between two handlers. -/
theorem tracker_upToDate (hrun : Run step (fun s a => ¬Silent s a) State.init s)
    (hidle : s.world.main = .idle) (hx : x ∈ s.deviceTrackerList) :
    x.updateNeeded = false ∧ s.UpToDate x := by
  have hinit : State.init.Told := by
    refine ⟨Lifecycle.book_init, ⟨?_, ?_⟩, fun _ => ?_⟩
    all_goals
      intro x hx
      cases hx
  have htold := hrun.invariant hinit fun _ _ _ hI hok hs => hI.step hok hs
  refine ⟨htold.settled.ready x hx, fun l hl _ => ?_⟩
  obtain ⟨l', hl', hlast⟩ := htold.told (not_removing hidle) x hx
  rw [hlast, some.inj (hl'.symm.trans hl)]

end Silence

def trackRun : List Action :=
  (Lifecycle.connectRun 3 (text "A") 0).map (.life · fun _ => false) ++
    [.trackDevices false,
      .packet ⟨.aCnxn, Sockets.A_VERSION, Sockets.MAX_PAYLOAD, text "device::"⟩ 0 fun _ => false]

def informed : DeviceTracker :=
  ⟨0, false, [text "000aA" ++ [0x09] ++ text "offline" ++ [0x0a],
    text "0009A" ++ [0x09] ++ text "device" ++ [0x0a]]⟩

theorem tracker_told_device : ∃ s, Run step (fun s a => ¬Silent s a) State.init s ∧
    s.world.main = .idle ∧ informed ∈ s.deviceTrackerList ∧
    informed.updateNeeded = false ∧ s.UpToDate informed := by
  have hexec : (exec step .init trackRun).map (fun s => decide (s.world.main = .idle ∧
      s.deviceTrackerList = [informed])) = some true := by decide +kernel
  obtain ⟨s, hs, heq⟩ := map_eq_some_iff.mp hexec
  obtain ⟨hidle, hlist⟩ := of_decide_eq_true heq
  have hrun : Run step (fun s a => ¬Silent s a) .init s := by
    refine run_of_exec (fun a ha u => ?_) hs
    simp only [trackRun, Lifecycle.connectRun, map_cons, map_nil, cons_append,
      nil_append, mem_cons, not_mem_nil, or_false] at ha
    rcases ha with rfl | rfl | rfl | rfl | rfl | rfl | rfl
    all_goals first | exact id | exact fun h => h.2.2 rfl
  have hmem : informed ∈ s.deviceTrackerList := hlist ▸ mem_cons_self
  exact ⟨s, hrun, hidle, hmem, tracker_upToDate hrun hidle hmem⟩

/-- When the device goes offline, nobody tells the tracker. -/
theorem tracker_stale : ∃ s, Run step (fun _ _ => True) State.init s ∧ s.world.main = .idle ∧
    informed ∈ s.deviceTrackerList ∧
    s.listing = some ⟨text "A" ++ [0x09] ++ text "offline" ++ [0x0a], true⟩ ∧
    informed.messages.getLast? = some (text "0009A" ++ [0x09] ++ text "device" ++ [0x0a]) ∧
    ¬ s.UpToDate informed := by
  have hexec : (exec step .init (trackRun ++ [.packet ⟨.aSync, 0, 0, []⟩ 0 fun _ => false])).map
      (fun s => decide (s.world.main = .idle ∧
        s.listing = some ⟨text "A" ++ [0x09] ++ text "offline" ++ [0x0a], true⟩ ∧
        s.deviceTrackerList = [informed])) = some true := by decide +kernel
  obtain ⟨s, hs, heq⟩ := map_eq_some_iff.mp hexec
  obtain ⟨hidle, hl, hlist⟩ := of_decide_eq_true heq
  have hmem : informed ∈ s.deviceTrackerList := hlist ▸ mem_cons_self
  refine ⟨s, run_of_exec (fun _ _ _ => trivial) hs, hidle, hmem, hl, rfl, fun hup => ?_⟩
  exact absurd (hup _ hl rfl) (by decide)

end PaxAdb.Tracking
