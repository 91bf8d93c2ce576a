import PaxAdb.SocketOps
import PaxAdb.Teardown

/-!
# The table of local transports

`init_socket_transport` puts a local transport into a slot of `local_transports` before
`register_socket_transport` looks for its serial number on the two lists, under another lock, and
`remote_kick` takes it out again. Transports are registered, listed and removed here while any
threads kick, unlink and unreference them.
-/

namespace PaxAdb.LocalTransports

open Runs Teardown List Function World
open Lifecycle (TransportId)

/-- The step calls `t->kick`. -/
def Kicks (t : TransportId) (w w' : World) : Prop := .kick t ∈ w'.log.drop w.log.length

instance (t : TransportId) (w w' : World) : Decidable (Kicks t w w') :=
  inferInstanceAs (Decidable (_ ∈ _))

def ADB_LOCAL_TRANSPORT_MAX : ℕ := 64

structure State where
  world : World
  localTransports : List (Option TransportId)
  /-- the serial numbers of the transports that have been linked -/
  serials : List (TransportId × List Byte)
  /-- local transports between the two sections of `register_socket_transport` -/
  registering : List (TransportId × List Byte)

namespace State

def init : State where
  world := ⟨⟨id, id⟩, fun _ => false, fun _ => ⟨false, 0, .tcp, 0⟩, fun _ => .idle, []⟩
  localTransports := replicate ADB_LOCAL_TRANSPORT_MAX none
  serials := []
  registering := []

variable (s : State)

/-- The number is not in use: every transport has one of its own. -/
def New (t : TransportId) : Prop :=
  (∀ e ∈ s.world.log, e.transport ≠ t) ∧ some t ∉ s.localTransports ∧
    s.world.linked t = false ∧ ∀ x ∈ s.registering, x.1 ≠ t

instance (t : TransportId) : Decidable (s.New t) := inferInstanceAs (Decidable (_ ∧ _))

def availableIndex : Option ℕ := s.localTransports.findIdx? (· = none)

def portTaken (port : ℕ) : Bool :=
  s.localTransports.any (fun x => x.any (fun t => (s.world.transport t).adbPort = port))

/-- `init_socket_transport` for a local transport. -/
def initSocketTransport (t : TransportId) (port : ℕ) : Option State :=
  if s.portTaken port then none
  else s.availableIndex.map fun i =>
    { s with world := s.world.setTransport t ⟨false, 0, .tcp, port⟩
             localTransports := s.localTransports.set i (some t) }

def serialTaken (serial : List Byte) : Bool :=
  s.serials.any (fun x => s.world.linked x.1 && x.2 = serial)

def linkPending (t : TransportId) (serial : Option (List Byte)) : State :=
  { s with world := { s.world with linked := update s.world.linked t true }
           serials := s.serials ++ serial.toList.map (t, ·) }

/-- `register_socket_transport` while it holds `transport_lock`. -/
def link (t : TransportId) (serial : List Byte) : State × ℤ :=
  if s.serialTaken serial then (s, -1) else (s.linkPending t (some serial), 0)

def allocate (t : TransportId) (x : Transport) : State :=
  { s with world := s.world.setTransport t x }

/-- A call that nothing interrupts, and its result. -/
def registerSocketTransport (t : TransportId) (serial : List Byte) (port : ℕ) (isLocal : Bool) :
    State × ℤ :=
  if isLocal then
    match s.initSocketTransport t port with
    | some s => s.link t serial
    | none => (s, -1)
  else (s.allocate t ⟨false, 0, .tcp, 0⟩).link t serial

/-- `remote_kick` clears the slot of each transport that the step has kicked. -/
def kicked (w : World) : State :=
  { s with
    world := w
    localTransports := s.localTransports.map fun x => x.filter fun t =>
      ¬((w.transport t).type = .tcp ∧ Kicks t s.world w) }

end State

/-- The two sections of `register_socket_transport` for a local transport, whole calls for any
other, what the main loop does with the two registration messages of a transport, and the calls
that take transports down. -/
inductive Action where
  | reserve (t : TransportId) (serial : List Byte) (port : ℕ)
  | link (t : TransportId) (serial : List Byte)
  | registerSocket (t : TransportId) (serial : List Byte)
  | registerUsb (t : TransportId) (serial : Option (List Byte))
  | start (t : TransportId) (noperm : Bool)
  | remove (t : TransportId)
  | teardown (a : Teardown.Action)
  deriving DecidableEq, Repr

def step (s : State) : Action → Option State
  | .reserve t serial port =>
      if s.New t then
        match s.initSocketTransport t port with
        | some s' => some { s' with registering := s.registering ++ [(t, serial)] }
        | none => some s
      else none
  | .link t serial =>
      if (t, serial) ∈ s.registering then
        some { (s.link t serial).1 with registering := s.registering.erase (t, serial) }
      else none
  | .registerSocket t serial =>
      if s.New t then some (s.registerSocketTransport t serial 0 false).1 else none
  | .registerUsb t serial =>
      if s.New t then some ((s.allocate t ⟨false, 0, .usb, 0⟩).linkPending t serial) else none
  | .start t noperm =>
      if s.world.linked t then
        let x := s.world.transport t
        let w := s.world.setTransport t (if noperm then x else { x with refCount := 2 })
        some { s with world := { w with links := w.links.insertTail .transportList (.node t) } }
      else none
  | .remove t =>
      if .post t ∈ s.world.log then some { s with world := s.world.unlink t } else none
  | .teardown a => (s.world.step a).map s.kicked

section Registration

variable {s s' : State} {t : TransportId} {serial : List Byte} {port i : ℕ}

/-- A slot is reserved for a transport whose serial number is taken. -/
def Leaks (s : State) (t : TransportId) (serial : List Byte) (port : ℕ) (isLocal : Bool) : Prop :=
  isLocal = true ∧ (s.initSocketTransport t port).isSome ∧ s.serialTaken serial = true

def SameTables (s s' : State) : Prop :=
  s'.localTransports = s.localTransports ∧ s'.world.linked = s.world.linked ∧
    s'.world.links = s.world.links

theorem initSocketTransport_spec (h : s.initSocketTransport t port = some s') :
    s.portTaken port = false ∧ ∃ i, s.localTransports[i]? = some none ∧
      s' = { s with world := s.world.setTransport t ⟨false, 0, .tcp, port⟩
                    localTransports := s.localTransports.set i (some t) } := by
  rw [State.initSocketTransport] at h
  split at h
  next => cases h
  next hport =>
    obtain ⟨i, hi, rfl⟩ := Option.map_eq_some_iff.mp h
    obtain ⟨hlt, hnone, -⟩ := findIdx?_eq_some_iff_getElem.mp hi
    refine ⟨by simpa using hport, i, ?_, rfl⟩
    rw [getElem?_eq_getElem hlt, of_decide_eq_true hnone]

theorem getElem?_set_slot {l : List (Option TransportId)} (hi : l[i]? = some none) (j : ℕ) :
    (l.set i (some t))[j]? = if j = i then some (some t) else l[j]? := by
  obtain ⟨hlt, -⟩ := List.getElem?_eq_some_iff.mp hi
  split
  next hj => rw [hj, List.getElem?_set_self hlt]
  next hj => rw [List.getElem?_set_ne (Ne.symm hj)]

/-- A refused registration leaves the tables alone unless it has reserved a slot. -/
theorem register_unchanged_iff (s : State) (t : TransportId) (serial : List Byte) (port : ℕ)
    (isLocal : Bool) :
    ((s.registerSocketTransport t serial port isLocal).2 = -1 →
        SameTables s (s.registerSocketTransport t serial port isLocal).1) ↔
      ¬Leaks s t serial port isLocal := by
  cases isLocal with
  | false =>
    refine iff_of_true (fun hfail => ?_) (fun hleak => Bool.false_ne_true hleak.1)
    simp only [State.registerSocketTransport, State.link, if_neg Bool.false_ne_true] at hfail ⊢
    split at hfail
    next htaken =>
      rw [if_pos htaken]
      exact ⟨rfl, rfl, rfl⟩
    next => cases hfail
  | true =>
    cases hinit : s.initSocketTransport t port with
    | none =>
      refine iff_of_true (fun _ => ?_) (fun hleak => ?_)
      · simp only [State.registerSocketTransport, hinit]
        exact ⟨rfl, rfl, rfl⟩
      · rw [Leaks, hinit] at hleak
        exact Bool.false_ne_true hleak.2.1
    | some s' =>
      obtain ⟨-, i, hi, rfl⟩ := initSocketTransport_spec hinit
      simp only [State.registerSocketTransport, hinit, Leaks, if_true, Option.isSome_some, true_and]
      have hsame : ∀ x, State.serialTaken
          { s with world := s.world.setTransport t x
                   localTransports := s.localTransports.set i (some t) }
          serial = s.serialTaken serial := fun _ => rfl
      rw [State.link, hsame]
      cases s.serialTaken serial with
      | false => simp
      | true =>
        refine iff_of_false (fun h => ?_) (fun hno => hno rfl)
        -- the slot that was free now refers to the transport
        have hslot := getElem?_set_slot (t := t) hi i
        rw [if_pos rfl, show s.localTransports.set i (some t) = s.localTransports from (h rfl).1,
          hi] at hslot
        cases hslot

end Registration

section Threads

variable {r r' : Prop} {t : TransportId} {w w' : World} {i : ℕ} {pc : Pc}

/-- The transport is in use, or about to be kicked. `r` says that it is being registered. -/
def Held (r : Prop) (t : TransportId) (w : World) : Prop :=
  (w.transport t).kicked = false ∧ (r ∨ w.linked t = true ∨ ∃ i, Unlinking w t i) ∨
    ∃ i, w.AtKick t i

theorem Held.mono (h : Held r t w) (hthread : w'.thread = w.thread)
    (hkicked : (w'.transport t).kicked = (w.transport t).kicked)
    (huse : (w.transport t).kicked = false → r ∨ w.linked t = true → r' ∨ w'.linked t = true) :
    Held r' t w' := by
  simp only [Held, Unlinking, World.AtKick, ← or_assoc] at h ⊢
  rw [hthread, hkicked]
  exact h.imp_left fun hw => ⟨hw.1, hw.2.imp_left (huse hw.1)⟩

theorem held_section (h : Section t w w') (hw : Held r t w) : Held r t w' ∨ Kicks t w w' := by
  rcases h.use with ⟨hk, hlinked⟩ | ⟨-, hlt⟩
  · refine .inl (hw.mono h.thread hk fun hf hr => ?_)
    rw [hlinked hf]
    exact hr
  · obtain ⟨l, hl⟩ := h.log
    rw [← hl, count_append] at hlt
    rw [Kicks, ← hl, drop_left]
    exact .inr (count_pos_iff.mp (by omega))

/-- A thread that gives up neither a kick nor a transport that is still to be kicked. -/
theorem Held.setThread (h : Held r t w) (hat : ¬w.AtKick t i)
    (hun : Unlinking w t i → (w.transport t).kicked = true ∨ pc = .lock t true) :
    Held r t (w.setThread i pc) := by
  rcases h with ⟨hk, hreg | hlinked | ⟨j, hj⟩⟩ | ⟨j, hj⟩
  · exact .inl ⟨hk, .inl hreg⟩
  · exact .inl ⟨hk, .inr (.inl hlinked)⟩
  · refine .inl ⟨hk, .inr (.inr ⟨j, ?_⟩)⟩
    rw [Unlinking, thread_setThread]
    split
    next hji =>
      subst hji
      refine .inr ((hun hj).resolve_left fun hk' => ?_)
      cases hk.symm.trans hk'
    next => exact hj
  · have hji : j ≠ i := fun heq => hat (heq ▸ hj)
    exact .inr ⟨j, by rwa [World.AtKick, thread_setThread, if_neg hji]⟩

/-- A transport in use is kicked before it is anything else. -/
theorem held_move (hm : Move t w w') (hw : Held r t w) : Held r t w' ∨ Kicks t w w' := by
  cases hm with
  | locked h => exact held_section h hw
  | thread i pc h hat hpc hun =>
    refine (held_section h hw).imp_left fun hw' => hw'.setThread ?_ fun hi => ?_
    · rw [World.AtKick, h.thread]
      exact hat
    · rw [Unlinking, h.thread] at hi
      refine (hun hi).imp_left fun hk => ?_
      rcases h.use with ⟨hk', -⟩ | ⟨hk', -⟩
      · exact hk'.trans hk
      · exact hk'
  | unlinked i hi =>
    refine .inl ?_
    rcases hw with ⟨hk, -⟩ | ⟨j, u, hj⟩
    · exact .inl ⟨hk, .inr (.inr ⟨i, .inl (by simp [thread_setThread])⟩)⟩
    · have hji : j ≠ i := by
        rintro rfl
        cases hi.symm.trans hj
      exact .inr ⟨j, u, by rwa [thread_setThread, if_neg hji]⟩
  | won i u => exact .inl (.inr ⟨i, u, by simp [thread_setThread]⟩)
  | called i u => exact .inr (by simp [Kicks, setThread, record])

theorem kept_move (hm : Move t w w') : (w'.transport t).type = (w.transport t).type ∧
    (w'.transport t).adbPort = (w.transport t).adbPort := by
  cases hm with
  | locked h | thread _ _ h => exact ⟨h.type, h.port⟩
  | unlinked | called => exact ⟨rfl, rfl⟩
  | won => simp [setThread, setTransport]

theorem posted_move (hm : Move t w w') (hw : .post t ∈ w.log → (w.transport t).kicked = true)
    (hpost : .post t ∈ w'.log) : (w'.transport t).kicked = true := by
  have hsection : ∀ {v}, Section t w v → .post t ∈ v.log → (v.transport t).kicked = true := by
    intro v h hv
    rcases h.posted hv with hold | hk
    · rcases h.use with ⟨hk, -⟩ | ⟨hk, -⟩
      · exact hk.trans (hw hold)
      · exact hk
    · exact hk
  cases hm with
  | locked h => exact hsection h hpost
  | @thread v i pc h => exact hsection (v := v) h hpost
  | unlinked i hi => exact hw hpost
  | won => simp [setThread, setTransport]
  | called => exact hw (by simpa [setThread, record] using hpost)

end Threads

section Runs

variable {s s' : State} {t : TransportId} {serial : List Byte} {port : ℕ} {a : Action}

def Registering (s : State) (t : TransportId) : Prop := ∃ serial, (t, serial) ∈ s.registering

def PortsDiffer (s : State) : Prop :=
  ∀ (i j : ℕ) t t', s.localTransports[i]? = some (some t) → s.localTransports[j]? = some (some t') →
    (s.world.transport t).adbPort = (s.world.transport t').adbPort → i = j

structure Sound (s : State) : Prop where
  tcp : ∀ t, some t ∈ s.localTransports → (s.world.transport t).type = .tcp
  held : ∀ t, some t ∈ s.localTransports → Held (Registering s t) t s.world
  posted : ∀ t, .post t ∈ s.world.log → (s.world.transport t).kicked = true
  ports : PortsDiffer s

theorem sound_init : Sound .init := by
  refine ⟨?_, ?_, ?_, fun i j t t' hi => ?_⟩
  · simp [State.init]
  · simp [State.init]
  · simp [State.init]
  · have hmem := mem_of_getElem? hi
    simp [State.init] at hmem

/-- A step that leaves the table, the threads and the transports in it alone. -/
theorem Sound.frame (h : Sound s) (hslots : s'.localTransports = s.localTransports)
    (hthread : s'.world.thread = s.world.thread) (hlog : s'.world.log = s.world.log)
    (htransport : ∀ t, ¬s.New t →
      (s'.world.transport t).kicked = (s.world.transport t).kicked ∧
        (s'.world.transport t).type = (s.world.transport t).type ∧
        (s'.world.transport t).adbPort = (s.world.transport t).adbPort)
    (huse : ∀ t, some t ∈ s.localTransports → (s.world.transport t).kicked = false →
      Registering s t ∨ s.world.linked t = true → Registering s' t ∨ s'.world.linked t = true) :
    Sound s' := by
  have hslot : ∀ t, some t ∈ s.localTransports → ¬s.New t := fun t ht hnew => hnew.2.1 ht
  refine ⟨fun t ht => ?_, fun t ht => ?_, fun t ht => ?_, fun i j t t' hi hj hport => ?_⟩
  · rw [hslots] at ht
    exact (htransport t (hslot t ht)).2.1.trans (h.tcp t ht)
  · rw [hslots] at ht
    exact (h.held t ht).mono hthread (htransport t (hslot t ht)).1 (huse t ht)
  · rw [hlog] at ht
    exact (htransport t fun hnew => hnew.1 _ ht rfl).1.trans (h.posted t ht)
  · rw [hslots] at hi hj
    refine h.ports i j t t' hi hj ?_
    rw [← (htransport t (hslot t (mem_of_getElem? hi))).2.2, hport,
      (htransport t' (hslot t' (mem_of_getElem? hj))).2.2]

theorem Sound.reserve (h : Sound s) (hnew : s.New t)
    (hs : s.initSocketTransport t port = some s') :
    Sound { s' with registering := s.registering ++ [(t, serial)] } := by
  obtain ⟨hport, i, hi, rfl⟩ := initSocketTransport_spec hs
  have hother : ∀ t', some t' ∈ s.localTransports → t' ≠ t := by
    rintro t' ht' rfl
    exact hnew.2.1 ht'
  have htransport : ∀ t', t' ≠ t →
      (s.world.setTransport t ⟨false, 0, .tcp, port⟩).transport t' = s.world.transport t' :=
    fun t' hne => update_of_ne hne _ _
  have hself := transport_setTransport s.world t ⟨false, 0, .tcp, port⟩
  have hfree : ∀ (j : ℕ) t', s.localTransports[j]? = some (some t') →
      (s.world.transport t').adbPort ≠ port := by
    intro j t' hj heq
    have hmem := mem_of_getElem? hj
    simp only [State.portTaken, any_eq_false] at hport
    exact hport _ hmem (by simp [heq])
  refine ⟨fun t' ht' => ?_, fun t' ht' => ?_, fun t' ht' => ?_, fun j k t₁ t₂ hj hk heq => ?_⟩
  · rcases mem_or_eq_of_mem_set ht' with hold | heq
    · exact (congrArg Transport.type (htransport t' (hother t' hold))).trans (h.tcp t' hold)
    · cases heq
      exact congrArg Transport.type hself
  · rcases mem_or_eq_of_mem_set ht' with hold | heq
    · refine (h.held t' hold).mono rfl
        (congrArg Transport.kicked (htransport t' (hother t' hold))) fun _ hr => ?_
      exact hr.imp_left fun ⟨serial', hmem⟩ => ⟨serial', mem_append_left _ hmem⟩
    · cases heq
      exact .inl ⟨congrArg Transport.kicked hself, .inl ⟨serial, by simp⟩⟩
  · have hne : t' ≠ t := by
      rintro rfl
      exact hnew.1 _ ht' rfl
    exact (congrArg Transport.kicked (htransport t' hne)).trans (h.posted t' ht')
  · simp only [getElem?_set_slot hi] at hj hk
    dsimp only at heq
    split at hj <;> split at hk
    next hji hki => exact hji.trans hki.symm
    next hji hki =>
      cases hj
      rw [hself, htransport t₂ (hother t₂ (mem_of_getElem? hk))] at heq
      exact absurd heq.symm (hfree k t₂ hk)
    next hji hki =>
      cases hk
      rw [hself, htransport t₁ (hother t₁ (mem_of_getElem? hj))] at heq
      exact absurd heq (hfree j t₁ hj)
    next =>
      rw [htransport t₁ (hother t₁ (mem_of_getElem? hj)),
        htransport t₂ (hother t₂ (mem_of_getElem? hk))] at heq
      exact h.ports j k t₁ t₂ hj hk heq

/-- The transports that are registered in one step are in no slot. -/
theorem Sound.allocate (h : Sound s) (hnew : s.New t) (x : Transport) : Sound (s.allocate t x) := by
  refine h.frame rfl rfl rfl (fun t' hold => ?_) fun _ _ _ hr => hr
  have hne : t' ≠ t := by
    rintro rfl
    exact hold hnew
  have hx : ((s.allocate t x).world.transport t') = s.world.transport t' :=
    update_of_ne hne _ _
  rw [hx]
  exact ⟨rfl, rfl, rfl⟩

theorem Sound.linkPending (h : Sound s) (t : TransportId) (serial : Option (List Byte)) :
    Sound (s.linkPending t serial) := by
  refine h.frame rfl rfl rfl (fun _ _ => ⟨rfl, rfl, rfl⟩) fun t' _ _ hr => hr.imp_right fun hl => ?_
  simp only [State.linkPending, update_apply]
  split
  next => rfl
  next => exact hl

theorem Sound.remove (h : Sound s) (hpost : .post t ∈ s.world.log) :
    Sound { s with world := s.world.unlink t } := by
  refine h.frame rfl rfl rfl (fun _ _ => ⟨rfl, rfl, rfl⟩) fun t' _ hk hr =>
    hr.imp_right fun hl => ?_
  have hne : t' ≠ t := by
    rintro rfl
    cases hk.symm.trans (h.posted t' hpost)
  simpa [unlink, hne] using hl

theorem getElem?_kicked {w : World} {i : ℕ}
    (hi : (s.kicked w).localTransports[i]? = some (some t)) :
    s.localTransports[i]? = some (some t) ∧ ¬((w.transport t).type = .tcp ∧ Kicks t s.world w) := by
  simp only [State.kicked, getElem?_map, Option.map_eq_some_iff] at hi
  obtain ⟨x, hx, hfilter⟩ := hi
  obtain ⟨rfl, hno⟩ := Option.filter_eq_some_iff.mp hfilter
  exact ⟨hx, of_decide_eq_true hno⟩

theorem Sound.kicked {b : Teardown.Action} {w : World} (h : Sound s)
    (hs : s.world.step b = some w) : Sound (s.kicked w) := by
  have hkept := fun t => kept_move (step_move t hs)
  have hslot : ∀ t, some t ∈ (s.kicked w).localTransports →
      some t ∈ s.localTransports ∧ ¬((w.transport t).type = .tcp ∧ Kicks t s.world w) := by
    intro t ht
    obtain ⟨i, hi⟩ := mem_iff_getElem?.mp ht
    exact (getElem?_kicked hi).imp_left mem_of_getElem?
  refine ⟨fun t ht => ?_, fun t ht => ?_, fun t => ?_, fun i j t t' hi hj heq => ?_⟩
  · exact (hkept t).1.trans (h.tcp t (hslot t ht).1)
  · obtain ⟨hold, hno⟩ := hslot t ht
    refine (held_move (step_move t hs) (h.held t hold)).resolve_right fun hkicks => ?_
    exact hno ⟨(hkept t).1.trans (h.tcp t hold), hkicks⟩
  · exact posted_move (step_move t hs) (h.posted t)
  · refine h.ports i j t t' (getElem?_kicked hi).1 (getElem?_kicked hj).1 ?_
    rw [← (hkept t).2, ← (hkept t').2]
    exact heq

/-- No registration finds its serial number taken after it has reserved a slot. -/
def NoLeak (s : State) (a : Action) : Prop :=
  ∀ t serial, a = .link t serial → s.serialTaken serial = false

theorem Sound.step (h : Sound s) (hleak : NoLeak s a) (hs : step s a = some s') : Sound s' := by
  cases a with
  | reserve t serial port =>
    simp only [LocalTransports.step] at hs
    split at hs
    next hnew =>
      cases hinit : s.initSocketTransport t port with
      | none =>
        rw [hinit] at hs
        exact Option.some.inj hs ▸ h
      | some v =>
        rw [hinit] at hs
        exact Option.some.inj hs ▸ h.reserve hnew hinit
    next => cases hs
  | link t serial =>
    simp only [LocalTransports.step] at hs
    split at hs
    next =>
      rw [State.link, hleak t serial rfl, if_neg Bool.false_ne_true] at hs
      cases hs
      refine (h.linkPending t (some serial)).frame rfl rfl rfl (fun _ _ => ⟨rfl, rfl, rfl⟩) ?_
      rintro t' - - (⟨serial', hmem⟩ | hl)
      · by_cases heq : (t', serial') = (t, serial)
        · cases heq
          exact .inr (update_self ..)
        · exact .inl ⟨serial', (mem_erase_of_ne heq).mpr hmem⟩
      · exact .inr hl
    next => cases hs
  | registerSocket t serial =>
    simp only [LocalTransports.step] at hs
    split at hs
    next hnew =>
      cases hs
      simp only [State.registerSocketTransport, State.link, if_neg Bool.false_ne_true]
      split
      next => exact h.allocate hnew _
      next => exact (h.allocate hnew _).linkPending t _
    next => cases hs
  | registerUsb t serial =>
    simp only [LocalTransports.step] at hs
    split at hs
    next hnew => exact Option.some.inj hs ▸ (h.allocate hnew _).linkPending t serial
    next => cases hs
  | start t noperm =>
    simp only [LocalTransports.step] at hs
    split at hs
    next =>
      cases hs
      refine h.frame rfl rfl rfl (fun t' _ => ?_) fun _ _ _ hr => hr
      by_cases hne : t' = t
      · subst hne
        rw [transport_setTransport]
        split <;> exact ⟨rfl, rfl, rfl⟩
      · rw [show (s.world.setTransport t _).transport t' = s.world.transport t' from
          update_of_ne hne _ _]
        exact ⟨rfl, rfl, rfl⟩
    next => cases hs
  | remove t =>
    simp only [LocalTransports.step] at hs
    split at hs
    next hpost => exact Option.some.inj hs ▸ h.remove hpost
    next => cases hs
  | teardown b =>
    obtain ⟨w, hw, rfl⟩ := Option.map_eq_some_iff.mp hs
    exact h.kicked hw

/-- Somebody is between the two sections of `register_socket_transport`, or has taken the transport
off its list or set `kicked` and will call `t->kick`. -/
def Due (s : State) (t : TransportId) : Prop :=
  Registering s t ∨ ∃ i, Unlinking s.world t i ∨ s.world.AtKick t i

theorem Held.linked (h : Held (Registering s t) t s.world) (hdue : ¬Due s t) :
    s.world.linked t = true ∧ (s.world.transport t).kicked = false := by
  rcases h with ⟨hk, hreg | hlinked | ⟨i, hi⟩⟩ | ⟨i, hi⟩
  · exact absurd (.inl hreg) hdue
  · exact ⟨hlinked, hk⟩
  · exact absurd (.inr ⟨i, .inl hi⟩) hdue
  · exact absurd (.inr ⟨i, .inr hi⟩) hdue

/-- A refused registration changes nothing unless it has reserved a slot. In a run without such a
registration the slots have different ports, and each refers to a transport that is linked and not
kicked, or that somebody is registering or taking down. -/
theorem local_transports_iff (s : State) :
    (∀ t serial port isLocal, ((s.registerSocketTransport t serial port isLocal).2 = -1 →
        SameTables s (s.registerSocketTransport t serial port isLocal).1) ↔
          ¬Leaks s t serial port isLocal) ∧
    (Run step NoLeak .init s → PortsDiffer s ∧
      ∀ t, some t ∈ s.localTransports → ¬Due s t →
        s.world.linked t = true ∧ (s.world.transport t).kicked = false) := by
  refine ⟨register_unchanged_iff s, fun hrun => ?_⟩
  have hsound : Sound s := hrun.invariant sound_init fun _ _ _ h hleak hs => h.step hleak hs
  exact ⟨hsound.ports, fun t ht => (hsound.held t ht).linked⟩

def emulator : List Byte := Sockets.text "emulator-5554"

def emulatorRun : List Action := [.reserve 0 emulator 5555, .link 0 emulator]

theorem local_transports_emulator : ∃ s, Run step NoLeak .init s ∧
    some 0 ∈ s.localTransports ∧ s.world.linked 0 = true ∧
    (s.world.transport 0).kicked = false := by
  obtain ⟨s₁, h₁, hfree⟩ : ∃ s₁, exec step .init [.reserve 0 emulator 5555] = some s₁ ∧
      s₁.serialTaken emulator = false := ⟨_, rfl, by decide +kernel⟩
  have hrun₁ : Run step NoLeak .init s₁ := by
    refine run_of_exec (fun a ha u t serial heq => ?_) h₁
    subst heq
    simp at ha
  obtain ⟨s, hs, hmem, hreg, hidle⟩ : ∃ s, step s₁ (.link 0 emulator) = some s ∧
      some 0 ∈ s.localTransports ∧ s.registering = [] ∧ s.world.thread = fun _ => .idle := by
    cases h₁
    exact ⟨_, rfl, by decide +kernel, by decide +kernel, rfl⟩
  have hrun : Run step NoLeak .init s := by
    refine hrun₁.snoc (fun t serial heq => ?_) hs
    cases heq
    exact hfree
  refine ⟨s, hrun, hmem, ((local_transports_iff s).2 hrun).2 0 hmem ?_⟩
  rintro (⟨serial, hserial⟩ | ⟨i, hi⟩)
  · simp [hreg] at hserial
  · simp [Unlinking, World.AtKick, hidle] at hi

/-- A second connection to the emulator with another adb port is refused and keeps its slot. -/
theorem registration_leaks_slot : ∃ s, exec step .init emulatorRun = some s ∧
    (s.registerSocketTransport 1 emulator 7777 true).2 = -1 ∧
    s.localTransports[1]? = some none ∧
    (s.registerSocketTransport 1 emulator 7777 true).1.localTransports[1]? = some (some 1) ∧
    (s.registerSocketTransport 1 emulator 7777 true).1.world.linked 1 = false := by
  refine ⟨_, rfl, ?_⟩
  decide +kernel

end Runs

end PaxAdb.LocalTransports
