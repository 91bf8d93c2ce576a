import PaxAdb.Lifecycle
import PaxAdb.Runs

/-!
# The transport life cycle without descriptors

A view of the world keeps the two lists, serial numbers, reference counters, the messages and the
positions of the threads, and forgets descriptor numbers and `kicked` flags. Every step of the world
is one move of the view, except `unregister_all_tcp_transports`, which is one move for each
transport it drops.
-/

namespace PaxAdb.Lifecycle

open Function (update update_of_ne)
open Ring Runs World Option

structure View where
  links : Links Ref
  type : TransportId → TransportType
  nextTransport : TransportId
  unposted : List TransportId
  registration : List (TransportId × Bool)
  main : MainPc
  thread : TransportId → ThreadName → ThreadPc
  status : TransportId → Status
  posted : TransportId → Bool
  /-- `none` for a transport that is not allocated -/
  refCount : TransportId → Option ℤ
  adbPort : TransportId → Option ℕ
  serial : TransportId → Option (Option (List Byte))
  /-- how often `t->fd` has been closed on behalf of the transport -/
  fdCloses : TransportId → ℕ

def World.view (w : World) : View where
  links := w.links
  type := w.type
  nextTransport := w.nextTransport
  unposted := w.unposted
  registration := w.registration
  main := w.main
  thread := w.thread
  status := w.status
  posted := w.posted
  refCount t := (w.transport t).map (·.refCount)
  adbPort t := (w.transport t).map (·.adbPort)
  serial t := (w.transport t).map (·.serial)
  fdCloses t := w.closes.countP (fun c => c.transport = t ∧ c.descriptor = .fd)

namespace View

variable (v : View)

def register (type : TransportType) (port : ℕ) (serial : Option (List Byte)) : View :=
  { v with
    links := v.links.insertTail .pendingList (.node v.nextTransport)
    type := update v.type v.nextTransport type
    nextTransport := v.nextTransport + 1
    unposted := v.unposted ++ [v.nextTransport]
    status := update v.status v.nextTransport .pending
    refCount := update v.refCount v.nextTransport (some 0)
    adbPort := update v.adbPort v.nextTransport (some port)
    serial := update v.serial v.nextTransport (some serial) }

def setThread (t : TransportId) (n : ThreadName) (pc : ThreadPc) : View :=
  { v with thread := update v.thread t (update (v.thread t) n pc) }

def closeFd (t : TransportId) : View :=
  { v with fdCloses := update v.fdCloses t (v.fdCloses t + 1) }

def unref (t : TransportId) (n : ℤ) : View :=
  { v with refCount := update v.refCount t (some (n - 1))
           registration := v.registration ++ if n = 1 then [(t, false)] else []
           posted := if n = 1 then update v.posted t true else v.posted
           fdCloses := if n = 1 ∧ v.type t = .tcp then
             update v.fdCloses t (v.fdCloses t + 1) else v.fdCloses }

def unlinkAs (t : TransportId) (s : Status) : View :=
  { v with links := v.links.unlink (.node t), status := update v.status t s }

def Master : Ref → Prop
  | .pendingList => False
  | .transportList => True
  | .node t => v.status t ≠ .unborn ∧ v.status t ≠ .pending

def Closed : Prop :=
  ∀ r, v.Master r → v.Master (v.links.next r) ∧ v.Master (v.links.prev r)

end View

/-- Moves are told apart where a condition on runs may exclude some of them: what changes
`transport_list`, a disconnect that drops a reference of a transport, and the removal message that
unlinks one. -/
inductive Kind where
  | plain
  | listing
  | release (t : TransportId)
  | removal (t : TransportId)
  deriving DecidableEq, Repr

/-- `S` holds of the list nodes that a loop over `transport_list` may meet. -/
inductive Move (S : View → Ref → Prop) (v : View) : Kind → View → Prop where
  | quiet : Move S v .plain v
  | refuse : Move S v .plain { v with nextTransport := v.nextTransport + 1 }
  | register (type : TransportType) (port : ℕ) (serial : Option (List Byte)) :
      Move S v .plain (v.register type port serial)
  | post {t : TransportId} (ht : t ∈ v.unposted) :
      Move S v .plain { v with
        unposted := v.unposted.erase t, registration := v.registration ++ [(t, true)] }
  | receive {t : TransportId} {rest : List (TransportId × Bool)} (hm : v.main = .idle)
      (hr : v.registration = (t, true) :: rest) :
      Move S v .plain { v with registration := rest, main := .linkTransport t }
  | start {t : TransportId} {rest : List (TransportId × Bool)} (hm : v.main = .idle)
      (hr : v.registration = (t, true) :: rest) :
      Move S v .plain { v with
        registration := rest, main := .linkTransport t
        refCount := update v.refCount t (some 2)
        thread := update v.thread t (fun _ => .running) }
  | link {t : TransportId} (hm : v.main = .linkTransport t) :
      Move S v .listing { v with
        links := (v.links.unlink (.node t)).insertTail .transportList (.node t)
        status := update v.status t .listed
        main := .idle }
  | receiveRemoval {t : TransportId} {rest : List (TransportId × Bool)} (hm : v.main = .idle)
      (hr : v.registration = (t, false) :: rest) :
      Move S v .plain { v with registration := rest, main := .closeFd t }
  | closeFd {t : TransportId} (hm : v.main = .closeFd t) :
      Move S v .plain { v.closeFd t with main := .unlinkTransport t }
  | unlink {t : TransportId} (hm : v.main = .unlinkTransport t) :
      Move S v (.removal t) { v.unlinkAs t .removed with main := .freeTransport t }
  | free {t : TransportId} (hm : v.main = .freeTransport t) :
      Move S v .listing { v with
        refCount := update v.refCount t none
        adbPort := update v.adbPort t none
        serial := update v.serial t none
        main := .idle }
  | disconnect {t : TransportId} {n : ℤ} (hm : v.main = .idle) (ht : S v (.node t))
      (hn : v.refCount t = some n) :
      Move S v .listing { v.unlinkAs t .unregistered with main := .kick t }
  | kick {t : TransportId} (hm : v.main = .kick t) : Move S v .plain { v with main := .callKick t }
  | skipKick {t : TransportId} (hm : v.main = .kick t) : Move S v .plain { v with main := .unref t }
  | callKick {t : TransportId} (hm : v.main = .callKick t) :
      Move S v .plain { v with main := .unref t }
  | unref {t : TransportId} {n : ℤ} (hm : v.main = .unref t) (hn : v.refCount t = some n) :
      Move S v (.release t) { v.unref t n with main := .idle }
  | dangle {t : TransportId} (hm : v.main = .unref t) (hn : v.refCount t = none) :
      Move S v (.release t) { v with main := .idle }
  | drop {t : TransportId} {n : ℤ} (hm : v.main = .idle) (ht : S v (.node t))
      (hn : v.refCount t = some n) (htype : v.type t = .tcp) (hport : v.adbPort t = some 0) :
      Move S v (.release t) ((v.unlinkAs t .unregistered).unref t n)
  | threadStep {t : TransportId} {m : ThreadName} {pc : ThreadPc} (hm : v.thread t m ≠ .absent)
      (hf : v.thread t m ≠ .finished) (hpc : pc ≠ .absent) (hpf : pc ≠ .finished) :
      Move S v .plain (v.setThread t m pc)
  | threadUnref {t : TransportId} {m : ThreadName} {n : ℤ} (hm : v.thread t m = .unref)
      (hn : v.refCount t = some n) :
      Move S v .plain ((v.unref t n).setThread t m .finished)

section Operations

variable {w : World} {t : TransportId} {x y : ATransport}

theorem map_update {γ : Type} (g : ATransport → γ) (f : TransportId → Option ATransport)
    (y : Option ATransport) : (fun u => (update f t y u).map g) =
      update (fun u => (f u).map g) t (y.map g) :=
  Function.comp_update (Option.map g) f t y

theorem update_map_self {γ : Type} {g : ATransport → γ} (hx : w.transport t = some x) {a : γ}
    (ha : a = g x) : update (fun u => (w.transport u).map g) t (some a) =
      fun u => (w.transport u).map g := by
  rw [Function.update_eq_self_iff, hx, ha]
  rfl

theorem view_setTransport_refCount (hx : w.transport t = some x) (hp : y.adbPort = x.adbPort)
    (hs : y.serial = x.serial) : (w.setTransport t y).view =
      { w.view with refCount := update w.view.refCount t (some y.refCount) } := by
  simp only [view, setTransport, map_update, map_some, update_map_self hx hp, update_map_self hx hs]

theorem view_setTransport (hx : w.transport t = some x) (hr : y.refCount = x.refCount)
    (hp : y.adbPort = x.adbPort) (hs : y.serial = x.serial) :
    (w.setTransport t y).view = w.view := by
  rw [view_setTransport_refCount hx hp hs]
  simp only [view, update_map_self hx hr]

theorem view_adbClose (w : World) (t : TransportId) {d : Descriptor} (hd : d ≠ .fd) (n : ℕ) :
    (w.adbClose t d n).view = w.view := by
  simp [view, adbClose, List.countP_append, hd]

theorem view_adbClose_fd (w : World) (t : TransportId) (n : ℕ) :
    (w.adbClose t .fd n).view = w.view.closeFd t := by
  simp only [view, adbClose, View.closeFd, View.mk.injEq, true_and, List.countP_append]
  funext u
  by_cases hu : u = t
  · subst u
    simp
  · rw [update_of_ne hu]
    simp [Ne.symm hu]

theorem view_callKick (w : World) (t : TransportId) : (w.callKick t).view = w.view := by
  unfold callKick
  split
  next x hx _ =>
    have hset : (w.setTransport t { x with sfd := none }).view = w.view :=
      view_setTransport hx rfl rfl rfl
    cases x.sfd with
    | none => exact hset
    | some n => exact (view_adbClose _ t (by simp) n).trans hset
  · rfl

theorem view_kickOnce (hx : w.transport t = some x) : (w.kickOnce t x).view = w.view := by
  unfold kickOnce
  split
  · rfl
  · exact (view_callKick _ t).trans (view_setTransport hx rfl rfl rfl)

theorem view_callClose (w : World) {t : TransportId} (ht : (w.view.refCount t).isSome) :
    (w.callClose t).view = match w.view.type t with
      | .tcp => w.view.closeFd t
      | .usb => w.view := by
  obtain ⟨x, hx⟩ : ∃ x, w.transport t = some x := by
    simpa [view, isSome_iff_exists] using ht
  change _ = match w.type t with
    | .tcp => w.view.closeFd t
    | .usb => w.view
  unfold callClose
  rw [hx]
  cases w.type t with
  | usb => rfl
  | tcp => exact view_adbClose_fd w t x.fd

theorem view_transportUnrefLocked (hx : w.transport t = some x) :
    (w.transportUnrefLocked t).view = w.view.unref t x.refCount := by
  have hset := view_setTransport_refCount (y := { x with refCount := x.refCount - 1 }) hx rfl rfl
  by_cases h1 : x.refCount = 1
  · set y : ATransport := { x with refCount := x.refCount - 1 } with hy
    have hkick := view_kickOnce (w := w.setTransport t y) (x := y)
      (by simp [setTransport] : (w.setTransport t y).transport t = some y)
    have hunref : w.transportUnrefLocked t =
        ((((w.setTransport t y).kickOnce t y).callClose t).removeTransport t) := by
      simp [transportUnrefLocked, hx, hy, h1]
    have hclose := view_callClose ((w.setTransport t y).kickOnce t y) (t := t)
      (by rw [hkick, hset]; simp)
    rw [hkick, hset] at hclose
    have hremove : ((((w.setTransport t y).kickOnce t y).callClose t).removeTransport t).view =
        { (((w.setTransport t y).kickOnce t y).callClose t).view with
          registration :=
            (((w.setTransport t y).kickOnce t y).callClose t).view.registration ++ [(t, false)]
          posted := update
            (((w.setTransport t y).kickOnce t y).callClose t).view.posted t true } := rfl
    rw [hunref, hremove, hclose]
    cases htype : w.view.type t <;> simp [View.unref, View.closeFd, h1, htype, hy]
  · have hunref : w.transportUnrefLocked t =
        w.setTransport t { x with refCount := x.refCount - 1 } := by
      have hne : x.refCount - 1 ≠ 0 := by omega
      simp only [transportUnrefLocked, hx, if_neg hne]
    rw [hunref, hset]
    simp [View.unref, h1]

end Operations

def Action.kind (w : World) (a : Action) : Kind :=
  match a, w.main with
  | .mainUnref, .unref t => .release t
  | .unlinkTransport, .unlinkTransport t => .removal t
  | .linkTransport, _ | .freeTransport, _ | .disconnect _, _ => .listing
  | _, _ => .plain

variable {t : TransportId} {n : ThreadName} {x : ATransport}

section Steps

variable {w w' : World} {S : View → Ref → Prop}

theorem Move.cast {v v₁ v₂ : View} {k : Kind} (h : Move S v k v₁) (he : v₂ = v₁) : Move S v k v₂ :=
  he ▸ h

theorem refCount_of_transport (hx : w.transport t = some x) :
    w.view.refCount t = some x.refCount := by
  simp [view, hx]

theorem view_linkPending (w : World) (x : ATransport) (type : TransportType) (hx : x.refCount = 0) :
    (w.linkPending x type).view = w.view.register type x.adbPort x.serial := by
  simp only [view, linkPending, View.register, map_update, map_some, hx]

theorem move_registerSocket (w : World) (s : ℕ) (serial : List Byte) (port : ℕ) :
    Move S w.view .plain (w.registerSocketTransport s serial port).view := by
  unfold registerSocketTransport
  split
  · exact Move.refuse
  · exact (Move.register .tcp _ _).cast (view_linkPending _ _ .tcp rfl)

theorem view_startTransport (hx : w.transport t = some x)
    (s0 s1 : ℕ) (hperm : x.noperm = false) : (w.startTransport t x s0 s1).view =
      { w.view with refCount := update w.view.refCount t (some 2)
                    thread := update w.view.thread t (fun _ => .running) } := by
  have hset := view_setTransport_refCount
    (y := { x with refCount := 2, transportSocket := s0, fd := s1 }) hx rfl rfl
  rw [startTransport, if_neg (by simp [hperm])]
  exact congrArg (fun v : View =>
    { v with thread := update w.thread t (fun _ => ThreadPc.running) }) hset

/-- What a loop over `transport_list` can meet in views that satisfy `I`, also when the list changes
under it. -/
structure Visits (I : View → Prop) (S : View → Ref → Prop) : Prop where
  first : ∀ v, I v → S v (v.links.next .transportList)
  next : ∀ v t, I v → S v (.node t) → S v (v.links.next (.node t))
  drop : ∀ v t v', I v → v.main = .idle → S v (.node t) → Move S v (.release t) v' →
    S v' (v.links.next (.node t))
  pending : ∀ v, I v → ¬ S v .pendingList

theorem visited_findTransport {I : View → Prop} (hS : Visits I S) (hw : I w.view)
    {serial : List Byte} (ht : w.findTransport serial = some t) :
    S w.view (.node t) ∧ ∃ x, w.transport t = some x := by
  unfold findTransport at ht
  split at ht <;> cases ht
  next u hu =>
    constructor
    · refine Links.forall_mem_walk ?_ _ _ (hS.first _ hw) _ (List.mem_of_find?_eq_some hu)
      intro r hr hSr
      cases r with
      | pendingList => exact absurd hSr (hS.pending _ hw)
      | transportList => exact absurd rfl hr
      | node u => exact hS.next _ u hw hSr
    · have hser := List.find?_some hu
      simp only [hasSerial, any_eq_true] at hser
      obtain ⟨x, hx, _⟩ := hser
      exact ⟨x, hx⟩

theorem move_mainKick (hm : w.main = .kick t) (hx : w.transport t = some x) :
    Move S w.view .plain { w.setTransport t { x with kicked := true } with
      main := MainPc.callKick t }.view :=
  (Move.kick hm).cast (congrArg (fun v : View => { v with main := .callKick t })
    (view_setTransport (y := { x with kicked := true }) hx rfl rfl rfl))

theorem move_mainUnref (hm : w.main = .unref t) :
    Move S w.view (.release t) { w.transportUnrefLocked t with main := MainPc.idle }.view := by
  cases hx : w.transport t with
  | none =>
    have hunref : w.transportUnrefLocked t = w := by simp only [transportUnrefLocked, hx]
    rw [hunref]
    exact Move.dangle hm (by simp [view, hx])
  | some x =>
    exact (Move.unref hm (refCount_of_transport hx)).cast
      (congrArg (fun v : View => { v with main := .idle }) (view_transportUnrefLocked hx))

theorem move_receiveRegistration {rest : List (TransportId × Bool)} (hm : w.main = .idle)
    (hr : w.registration = (t, true) :: rest) (hx : w.transport t = some x) (s0 s1 : ℕ) :
    Move S w.view .plain { w.startTransport t x s0 s1 with
      registration := rest, main := MainPc.linkTransport t }.view := by
  cases hperm : x.noperm with
  | true =>
    rw [startTransport, if_pos hperm]
    exact Move.receive hm hr
  | false =>
    exact (Move.start hm hr).cast
      (congrArg (fun v : View => { v with registration := rest, main := .linkTransport t })
        (view_startTransport hx s0 s1 hperm))

theorem move_freeTransport (hm : w.main = .freeTransport t) : Move S w.view .listing { w with
      transport := update w.transport t none, main := MainPc.idle }.view := by
  refine (Move.free hm).cast ?_
  simp only [view, map_update, map_none]

theorem move_threadKick
    (hpc : w.thread t n = .kick) (hx : w.transport t = some x) : Move S w.view .plain
      ((w.setTransport t { x with kicked := true }).setThread t n .callKick).view :=
  (Move.threadStep (by simp [view, hpc]) (by simp [view, hpc]) (by simp)
    (by simp)).cast (congrArg (fun v : View => v.setThread t n .callKick)
      (view_setTransport (y := { x with kicked := true }) hx rfl rfl rfl))

theorem move_threadCallKick (hpc : w.thread t n = .callKick) :
    Move S w.view .plain ((w.callKick t).setThread t n .unref).view :=
  (Move.threadStep (by simp [view, hpc]) (by simp [view, hpc]) (by simp)
    (by simp)).cast (congrArg (fun v : View => v.setThread t n .unref) (view_callKick w t))

theorem move_threadUnref (hpc : w.thread t n = .unref) (hx : w.transport t = some x) :
    Move S w.view .plain ((w.transportUnrefLocked t).setThread t n .finished).view :=
  (Move.threadUnref hpc (refCount_of_transport hx)).cast
    (congrArg (fun v : View => v.setThread t n .finished) (view_transportUnrefLocked hx))

/-- Every step but `unregister_all_tcp_transports` is one move of the view. -/
theorem move_of_step {I : View → Prop} (hS : Visits I S) {a : Action} (hw : I w.view)
    (hs : step w a = some w') (ha : a ≠ .disconnectAll) : Move S w.view (a.kind w) w'.view := by
  cases a with
  | registerSocket s serial port =>
    obtain ⟨_, h⟩ := ite_none_right_eq_some.mp hs
    cases h
    exact move_registerSocket w s serial port
  | registerUsb serial writeable =>
    cases hs
    exact (Move.register .usb 0 _).cast (view_linkPending _ _ .usb rfl)
  | postRegistration t =>
    obtain ⟨ht, h⟩ := ite_none_right_eq_some.mp hs
    cases h
    exact Move.post ht
  | receiveRegistration s0 s1 =>
    simp only [step] at hs
    split at hs
    next t rest hm hr =>
      split at hs
      next x hx =>
        obtain ⟨_, h⟩ := ite_none_right_eq_some.mp hs
        cases h
        exact move_receiveRegistration hm hr hx s0 s1
      · cases hs
    · cases hs
  | linkTransport =>
    simp only [step] at hs
    split at hs <;> cases hs
    next t hm =>
      exact Move.link hm
  | receiveRemoval =>
    simp only [step] at hs
    split at hs
    next t rest hm hr =>
      split at hs <;> cases hs
      next x hx =>
        exact (Move.receiveRemoval hm hr).cast
          (congrArg (fun v : View => { v with registration := rest, main := .closeFd t })
            (view_adbClose w t (by simp) x.transportSocket))
    · cases hs
  | closeFd =>
    simp only [step] at hs
    split at hs
    next t hm =>
      split at hs <;> cases hs
      next x hx =>
        exact (Move.closeFd hm).cast
          (congrArg (fun v : View => { v with main := .unlinkTransport t })
            (view_adbClose_fd w t x.fd))
    · cases hs
  | unlinkTransport =>
    simp only [step] at hs
    split at hs <;> cases hs
    next t hm =>
      simp only [Action.kind, hm]
      exact Move.unlink hm
  | freeTransport =>
    simp only [step] at hs
    split at hs <;> cases hs
    next t hm =>
      exact move_freeTransport hm
  | disconnect serial =>
    simp only [step] at hs
    split at hs <;> cases hs
    next t hm ht =>
      obtain ⟨hmaster, x, hx⟩ := visited_findTransport hS hw ht
      exact Move.disconnect hm hmaster (refCount_of_transport hx)
  | mainKick =>
    simp only [step] at hs
    split at hs
    next t hm =>
      split at hs
      next x hx =>
        split at hs
        · cases hs
          exact Move.skipKick hm
        · cases hs
          exact move_mainKick hm hx
      · cases hs
    · cases hs
  | mainCallKick =>
    simp only [step] at hs
    split at hs <;> cases hs
    next t hm =>
      exact (Move.callKick hm).cast
        (congrArg (fun v : View => { v with main := .unref t }) (view_callKick w t))
  | mainUnref =>
    simp only [step] at hs
    split at hs <;> cases hs
    next t hm =>
      simp only [Action.kind, hm]
      exact move_mainUnref hm
  | disconnectAll => exact absurd rfl ha
  | threadLeave t n =>
    obtain ⟨⟨hpc, _⟩, h⟩ := ite_none_right_eq_some.mp hs
    cases h
    exact Move.threadStep (by simp [view, hpc]) (by simp [view, hpc]) (by simp)
      (by simp)
  | threadKick t n =>
    simp only [step] at hs
    split at hs
    next x hpc hx =>
      split at hs
      · cases hs
        exact Move.threadStep (by simp [view, hpc]) (by simp [view, hpc])
          (by simp) (by simp)
      · cases hs
        exact move_threadKick hpc hx
    · cases hs
  | threadCallKick t n =>
    simp only [step] at hs
    split at hs <;> cases hs
    next _ hpc _ =>
      exact move_threadCallKick hpc
  | threadUnref t n =>
    simp only [step] at hs
    split at hs <;> cases hs
    next x hpc hx =>
      exact move_threadUnref hpc hx
  | openFile | closeFile =>
    obtain ⟨_, h⟩ := ite_none_right_eq_some.mp hs
    cases h
    exact Move.quiet

theorem transport_of_refCount {n : ℤ} (hn : w.view.refCount t = some n) :
    ∃ x, w.transport t = some x ∧ x.refCount = n := by
  simpa [view] using hn

theorem move_unregisterTcp (hx : w.transport t = some x)
    (hm : w.main = .idle) (ht : S w.view (.node t)) : (w.unregisterTcp t x).view = w.view ∨
      Move S w.view (.release t) (w.unregisterTcp t x).view := by
  by_cases hcond : w.type t = .tcp ∧ x.adbPort = 0
  · right
    set w₁ : World := { w with links := w.links.unlink (.node t)
                               status := update w.status t .unregistered } with hw₁
    have hkick : (w₁.kickOnce t x).view = w₁.view := view_kickOnce hx
    obtain ⟨z, hz, hzn⟩ : ∃ z, (w₁.kickOnce t x).transport t = some z ∧ z.refCount = x.refCount :=
      transport_of_refCount (by rw [hkick]; exact refCount_of_transport (w := w₁) hx)
    refine (Move.drop hm ht (refCount_of_transport hx) hcond.1 ?_).cast ?_
    · simp [view, hx, hcond.2]
    · rw [unregisterTcp, if_pos hcond]
      change ((w₁.kickOnce t x).transportUnrefLocked t).view = _
      rw [view_transportUnrefLocked hz, hkick, hzn]
      rfl
  · left
    rw [unregisterTcp, if_neg hcond]

/-- The rule for `unregister_all_tcp_transports`: what each dropped transport preserves, the whole
loop preserves. -/
theorem unregisterAllLoop_invariant {I : View → Prop} (hS : Visits I S)
    (hidle : ∀ v, I v → v.main = .idle)
    (hmove : ∀ v t v', I v → Move S v (.release t) v' → I v') (fuel : ℕ) :
    ∀ (r : Ref) (w : World), I w.view → S w.view r →
      I (unregisterAllLoop fuel r w).view := by
  induction fuel with
  | zero =>
    intro r w hw _
    exact hw
  | succ fuel ih =>
    intro r w hw hr
    cases r with
    | pendingList => exact hw
    | transportList => exact hw
    | node t =>
      rw [unregisterAllLoop]
      cases hx : w.transport t with
      | none => exact hw
      | some x =>
        rcases move_unregisterTcp hx (hidle _ hw) hr with heq | hdrop
        · exact ih _ _ (heq ▸ hw) (heq ▸ hS.next _ t hw hr)
        · exact ih _ _ (hmove _ t _ hw hdrop) (hS.drop _ t _ hw (hidle _ hw) hr hdrop)

structure Droppable (S : View → Ref → Prop) (w : World) (v : View) (t : TransportId) : Prop where
  main : v.main = .idle
  visited : S v (.node t)
  live : ∃ n, v.refCount t = some n
  tcp : w.type t = .tcp
  port : w.view.adbPort t = some 0
  listed : v.status t = .listed → w.status t = .listed

/-- The rule for invariants of the view: one case for each move. `K` is what a condition on the
steps of the world says about the moves they consist of. -/
theorem invariant_of_moves {I : View → Prop} {K : View → Kind → Prop}
    (hS : Visits I S) (hmove : ∀ v k v', I v → K v k → Move S v k v' → I v') {a : Action}
    (hw : I w.view)
    (hs : step w a = some w') (hK : K w.view (a.kind w))
    (hall : a = .disconnectAll → ∀ v t, I v → Droppable S w v t → K v (.release t)) :
    I w'.view := by
  by_cases ha : a = .disconnectAll
  · subst a
    simp only [step] at hs
    split at hs <;> cases hs
    next hm =>
      -- the loop changes neither types nor ports, and lists nothing anew
      let J : View → Prop := fun v => I v ∧ v.main = .idle ∧ v.type = w.type ∧
        v.adbPort = w.view.adbPort ∧ ∀ t, v.status t = .listed → w.status t = .listed
      have hJ : J (unregisterAllTcpTransports w).view := by
        have hSJ : Visits J S :=
          ⟨fun v h => hS.first v h.1, fun v t h => hS.next v t h.1,
            fun v t v' h => hS.drop v t v' h.1, fun v h => hS.pending v h.1⟩
        refine unregisterAllLoop_invariant hSJ (fun v h => h.2.1) ?_ _ _ _
          ⟨hw, hm, rfl, rfl, fun t h => h⟩ (hS.first _ hw)
        rintro v t v' ⟨hI, hidle, htypes, hports, hlisted⟩ hrel
        have hrel' := hrel
        cases hrel with
        | unref hm' | dangle hm' => exact absurd (hidle.symm.trans hm') (by simp)
        | drop hm' ht hn htype hport =>
          refine ⟨hmove v _ _ hI (hall rfl v t hI ?_) hrel', hidle, htypes, hports, ?_⟩
          · exact ⟨hidle, ht, ⟨_, hn⟩, htypes ▸ htype, hports ▸ hport, hlisted t⟩
          · intro u hu
            by_cases hut : u = t
            · subst u
              simp [View.unref, View.unlinkAs] at hu
            · exact hlisted u (by
                simpa [View.unref, View.unlinkAs, update_of_ne hut] using hu)
      exact hJ.1
  · exact hmove _ _ _ hw hK (move_of_step hS hw hs ha)

theorem master_release {v v' : View} {r : Ref} (h : Move View.Master v (.release t) v')
    (hr : v.Master r) : v'.Master r := by
  cases h with
  | unref | dangle => cases r <;> exact hr
  | drop hm ht hn htype hport =>
    cases r with
    | pendingList => exact hr
    | transportList => trivial
    | node u =>
      by_cases hu : u = t
      · subst u
        simp [View.Master, View.unlinkAs, View.unref]
      · simpa [View.Master, View.unlinkAs, View.unref, update_of_ne hu] using hr

theorem visits_master {I : View → Prop} (hclosed : ∀ v, I v → v.Closed) :
    Visits I View.Master where
  first v h := (hclosed v h .transportList trivial).1
  next v t h ht := (hclosed v h (.node t) ht).1
  drop v t _ h _ ht hdrop := master_release hdrop (hclosed v h (.node t) ht).1
  pending _ _ := id

theorem Move.mono {S' : View → Ref → Prop} {v v' : View} {k : Kind}
    (himp : ∀ r, S v r → S' v r) (h : Move S v k v') : Move S' v k v' := by
  cases h with
  | disconnect hm ht hn => exact .disconnect hm (himp _ ht) hn
  | drop hm ht hn htype hport => exact .drop hm (himp _ ht) hn htype hport
  | callKick hm => exact .callKick hm
  | _ => constructor <;> assumption

end Steps

end PaxAdb.Lifecycle
