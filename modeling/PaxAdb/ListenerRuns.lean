import PaxAdb.DeviceSelection
import PaxAdb.Listeners
import PaxAdb.Runs

/-!
# Runs of the listeners

Requests come from clients, transports come and go. In every state that can be reached the listeners
and their nodes agree. The port of the server itself is protected in the loops that install and
remove listeners, but not in `remove_listener`.
-/

namespace PaxAdb.Listeners

open Sockets (Addr TransportId TransportKind text)
open Forward (handleForwardRequest)
open Selection (Device)
open Runs (Run exec)
open Option Function List

namespace Registry

variable {R R' : Registry} {a : Addr} {l : AListener} {t : TransportId}

section Requests

variable {env : Env} {service localName connectTo : List Byte} {ttype : TransportKind}
  {serial : Option (List Byte)} {reply : Reply}

theorem acquireOneTransport_mem (h : R.acquireOneTransport ttype serial = .ok t) :
    t ∈ R.transportList := by
  rw [acquireOneTransport, Selection.outcome] at h
  split at h
  next u hu =>
    cases h
    have honly := (((Selection.round_spec _ _ _ _ _ _).1 t).mp hu).1
    have hmem : t ∈ [t] := mem_singleton_self t
    rw [← honly] at hmem
    exact mem_of_mem_filter hmem
  next => cases h

theorem installListener_target {noRebind : Bool}
    (h : handleForwardRequest service = some (.installListener localName connectTo noRebind)) :
    connectTo.head? ≠ some 0x2a := by
  have hcreate : ∀ spec nb, Forward.createForward spec nb =
      .installListener localName connectTo noRebind → connectTo.head? ≠ some 0x2a := by
    intro spec nb hspec
    rw [Forward.createForward] at hspec
    split at hspec
    · cases hspec
    dsimp only at hspec
    split at hspec
    · cases hspec
    next hno =>
      cases hspec
      exact fun hstar => hno (.inr (.inr hstar))
  rw [handleForwardRequest] at h
  dsimp only at h
  split_ifs at h
  · cases h
  · cases h
  · cases h
  · cases h
  · exact hcreate _ _ (some.inj h)
  · exact hcreate _ _ (some.inj h)

inductive Handled (R : Registry) (service : List Byte) (ttype : TransportKind)
    (serial : Option (List Byte)) : Reply → Registry → Prop
  | unchanged (reply : Reply)
      (hnone : ∀ localName t, handleForwardRequest service = some (.removeListener localName) →
        R.acquireOneTransport ttype serial = .ok t → R.removeListener localName = none) :
      Handled R service ttype serial reply R
  | removedAll {R' : Registry} (hreq : handleForwardRequest service = some .removeAllListeners)
      (h : R.removeAllListeners = some R') : Handled R service ttype serial .okay R'
  | removed {R' : Registry} {localName : List Byte} {t : TransportId}
      (hreq : handleForwardRequest service = some (.removeListener localName))
      (hacq : R.acquireOneTransport ttype serial = .ok t)
      (h : R.removeListener localName = some R') : Handled R service ttype serial .okay R'
  | rebound {localName connectTo : List Byte} {noRebind : Bool} {a : Addr} {l : AListener}
      {t : TransportId}
      (hreq : handleForwardRequest service = some (.installListener localName connectTo noRebind))
      (hacq : R.acquireOneTransport ttype serial = .ok t) (ha : R.listener a = some l)
      (hs : l.special = false) :
      Handled R service ttype serial .okay (R.rebind a l connectTo (some t))
  | added {localName connectTo : List Byte} {noRebind : Bool} {t : TransportId}
      (hreq : handleForwardRequest service = some (.installListener localName connectTo noRebind))
      (hacq : R.acquireOneTransport ttype serial = .ok t)
      (hfind : R.findListener localName = none) :
      Handled R service ttype serial .okay (R.addListener ⟨localName, connectTo, some t⟩)

theorem installListener_handled {noRebind : Bool} {status : InstallStatus}
    (hreq : handleForwardRequest service = some (.installListener localName connectTo noRebind))
    (hacq : R.acquireOneTransport ttype serial = .ok t)
    (h : R.installListener env localName connectTo (some t) noRebind = some (status, R')) :
    Handled R service ttype serial status.reply R' := by
  have hnone : ∀ name u, handleForwardRequest service = some (.removeListener name) →
      R.acquireOneTransport ttype serial = .ok u → R.removeListener name = none :=
    fun name u hrem => nomatch hreq.symm.trans hrem
  rw [Registry.installListener] at h
  split at h
  next a ha =>
    obtain ⟨l, hl, h⟩ := map_eq_some_iff.mp h
    split_ifs at h with hs <;> cases h
    · exact .unchanged _ hnone
    · exact .unchanged _ hnone
    · exact .rebound hreq hacq hl (Bool.eq_false_of_not_eq_true hs)
    · exact .unchanged _ hnone
  next hfind =>
    split_ifs at h <;> cases h
    · exact .added hreq hacq hfind
    · exact .unchanged _ hnone

theorem handleForward_handled (h : R.handleForward env service ttype serial = some (reply, R')) :
    Handled R service ttype serial reply R' := by
  rw [handleForward] at h
  split at h
  next => cases h
  next hreq =>
    have hnone : ∀ name u, handleForwardRequest service = some (.removeListener name) →
        R.acquireOneTransport ttype serial = .ok u → R.removeListener name = none :=
      fun name u hrem => nomatch hreq.symm.trans hrem
    split_ifs at h <;> cases h <;> exact .unchanged _ hnone
  next hreq =>
    obtain ⟨R₁, hR₁, h⟩ := map_eq_some_iff.mp h
    cases h
    exact .removedAll hreq hR₁
  next hreq =>
    cases h
    exact .unchanged _ fun name u hrem => nomatch hreq.symm.trans hrem
  next localName connectTo noRebind hreq =>
    rw [withTransport] at h
    split at h
    · cases h
      exact .unchanged _ fun name u hrem => nomatch hreq.symm.trans hrem
    next t hacq =>
      obtain ⟨⟨status, R₁⟩, hinstall, h⟩ := map_eq_some_iff.mp h
      cases h
      exact installListener_handled hreq hacq hinstall
  next localName hreq =>
    rw [withTransport] at h
    split at h
    next hacq =>
      cases h
      exact .unchanged _ fun name u _ hu => nomatch hacq.symm.trans hu
    next t hacq =>
      split at h
      next R₁ hR₁ =>
        cases h
        exact .removed hreq hacq hR₁
      next hR₁ =>
        cases h
        refine .unchanged _ fun name u hrem _ => ?_
        cases hreq.symm.trans hrem
        exact hR₁

end Requests

section Runs

variable {env : Env} {service name : List Byte} {ttype : TransportKind}
  {serial : Option (List Byte)} {reply : Reply} {e : Event} {device : TransportId → Device}

theorem special_smart (name : List Byte) : (AListener.smart name).special = true := by
  have hstar : (text "*smartsocket*").head? = some 0x2a := by decide +kernel
  exact decide_eq_true hstar

theorem ok_init (device : TransportId → Device) (name : List Byte) : Ok (init device name) := by
  refine Ok.addListener ⟨nodup_nil, ?_, fun _ _ => rfl, nofun, ?_, fun _ => nodup_nil,
    nofun, nofun, nofun⟩ nofun (.inl ⟨rfl, rfl⟩) nofun
  · simp
  · simp

theorem findListener_some (h : R.findListener name = some a) :
    ∃ l, R.listener a = some l ∧ l.localName = name := by
  have hany := find?_some h
  cases hl : R.listener a with
  | none => simp [hl] at hany
  | some l => exact ⟨l, rfl, by simpa [hl] using hany⟩

theorem Ok.findListener_none (h : Ok R) (hnone : R.findListener name = none)
    (ha : R.listener a = some l) : l.localName ≠ name := by
  intro hname
  have hmem : a ∈ R.listenerList := (h.listed a).mpr (by rw [ha]; nofun)
  have hany := find?_eq_none.mp hnone a hmem
  simp [ha, hname] at hany

theorem Ok.handled (h : Ok R) (hreq : Handled R service ttype serial reply R') : Ok R' := by
  cases hreq with
  | unchanged => exact h
  | removedAll _ hall =>
    obtain ⟨R₁, hR₁, hok, -⟩ := h.removeAllListeners
    cases hR₁.symm.trans hall
    exact hok
  | removed _ _ hrem =>
    obtain ⟨a, -, hfree⟩ := bind_eq_some_iff.mp hrem
    exact h.freeListener hfree
  | rebound hreq hacq ha _ =>
    exact h.rebind ha (installListener_target hreq) (h.onList _ (acquireOneTransport_mem hacq))
  | added hreq hacq hfind =>
    have hstar := installListener_target hreq
    refine h.addListener (fun a m ha => h.findListener_none hfind ha) (.inr ⟨nofun, ?_⟩) ?_
    · simp [AListener.special, hstar]
    · rintro t ⟨⟩
      exact h.onList _ (acquireOneTransport_mem hacq)

theorem Ok.sockets (h : Ok R) {nodes : List Node} (hnodup : nodes.Nodup)
    (hsame : nodes.filter Node.isListener = (R.disconnects t).filter Node.isListener) :
    Ok { R with disconnects := update R.disconnects t nodes } := by
  refine h.frame rfl rfl rfl ?_ ?_ h.live h.onList
  · intro a u
    dsimp only
    by_cases hu : u = t
    · subst hu
      have hfilter : ∀ l : List Node,
          .listener a ∈ l.filter Node.isListener ↔ .listener a ∈ l := by
        simp [Node.isListener]
      rw [update_self, ← hfilter nodes, hsame, hfilter]
    · rw [update_of_ne hu]
  · intro u
    by_cases hu : u = t
    · simpa [hu] using hnodup
    · simpa [hu] using h.single u

theorem Ok.register (h : Ok R) (ht : R.live t = false) (d : Device) :
    Ok { R with
      transportList := R.transportList ++ [t]
      disconnects := update R.disconnects t []
      device := update R.device t d
      live := update R.live t true } := by
  refine h.frame rfl rfl rfl ?_ ?_ ?_ ?_
  · intro a u
    by_cases hu : u = t
    · subst hu
      -- no listener was on a transport that is not there
      have hno : .listener a ∉ R.disconnects u := by
        rw [h.nodes]
        rintro ⟨l, ha, hl⟩
        exact absurd (ht.symm.trans (h.live a l u ha hl)) nofun
      simp [hno]
    · simp [hu]
  · intro u
    by_cases hu : u = t
    · simp [hu]
    · simpa [hu] using h.single u
  · intro a l u ha hl
    by_cases hu : u = t
    · simp [hu]
    · simpa [hu] using h.live a l u ha hl
  · intro u hu
    by_cases hut : u = t
    · simp [hut]
    · simpa [hut] using h.onList u (by simpa [hut] using hu)

theorem Ok.unlist (h : Ok R) (t : TransportId) :
    Ok { R with transportList := R.transportList.filter (· ≠ t) } :=
  h.frame rfl rfl rfl (fun _ _ => Iff.rfl) h.single h.live
    fun u hu => h.onList u (mem_filter.mp hu).1

theorem Ok.remove (h : Ok R) (hempty : R.disconnects t = []) (hlist : t ∉ R.transportList) :
    Ok { R with live := update R.live t false } := by
  refine h.frame rfl rfl rfl (fun _ _ => Iff.rfl) h.single ?_ ?_
  · intro a l u ha hl
    have hu : u ≠ t := by
      rintro rfl
      exact h.not_on hempty ha hl
    simpa [hu] using h.live a l u ha hl
  · intro u hu
    have hut : u ≠ t := by
      rintro rfl
      exact hlist hu
    simpa [hut] using h.onList u hu

theorem Ok.step_remove (h : Ok R) (hs : step R (.remove t) = some R') :
    Ok R' ∧ ∀ a l, l.transport ≠ some t → (R'.listener a = some l ↔ R.listener a = some l) := by
  rw [step] at hs
  split_ifs at hs
  obtain ⟨R₁, hR₁, hok, hkept, hempty⟩ := (h.unlist t).runTransportDisconnects t
  rw [hR₁, map_some, some.injEq] at hs
  subst hs
  refine ⟨hok.remove hempty ?_, hkept.others⟩
  rw [hkept.transportList]
  simp

theorem step_ok (h : Ok R) (hs : step R e = some R') : Ok R' := by
  cases e with
  | request service ttype serial env =>
    obtain ⟨⟨reply, R₁⟩, hreq, rfl⟩ := map_eq_some_iff.mp hs
    exact h.handled (handleForward_handled hreq)
  | register t d =>
    rw [step] at hs
    split_ifs at hs with ht
    cases hs
    exact h.register (Bool.eq_false_of_not_eq_true ht) d
  | change t d =>
    cases hs
    exact h.frame rfl rfl rfl (fun _ _ => Iff.rfl) h.single h.live h.onList
  | unlist t =>
    cases hs
    exact h.unlist t
  | sockets t nodes =>
    rw [step] at hs
    split_ifs at hs with hnodes
    cases hs
    exact h.sockets hnodes.2.1 hnodes.2.2
  | disconnects t =>
    rw [step] at hs
    split_ifs at hs
    obtain ⟨R₁, hR₁, hok, -⟩ := h.runTransportDisconnects t
    cases hR₁.symm.trans hs
    exact hok
  | remove t => exact (h.step_remove hs).1

theorem run_ok (h : Run step (fun _ _ => True) (init device name) R) : Ok R :=
  h.invariant (ok_init device name) fun _ _ _ hok _ hs => step_ok hok hs

end Runs

section ControlPort

variable {service name : List Byte} {ttype : TransportKind} {serial : Option (List Byte)}
  {reply : Reply} {e : Event}

def Survives (name : List Byte) (R : Registry) : Prop :=
  ∃ a ∈ R.listenerList, R.listener a = some (.smart name)

def Kills (name : List Byte) (R : Registry) (e : Event) : Prop :=
  ∃ service ttype serial env t, e = .request service ttype serial env ∧
    handleForwardRequest service = some (.removeListener name) ∧
    R.acquireOneTransport ttype serial = .ok t

def Spared (name : List Byte) : Registry → List Event → Prop
  | _, [] => True
  | R, e :: es => ¬Kills name R e ∧ ∀ R', step R e = some R' → Spared name R' es

theorem Ok.survives_iff (h : Ok R) :
    Survives name R ↔ ∃ a, R.listener a = some (.smart name) := by
  constructor
  · rintro ⟨a, -, ha⟩
    exact ⟨a, ha⟩
  · rintro ⟨a, ha⟩
    exact ⟨a, (h.listed a).mpr (by rw [ha]; nofun), ha⟩

theorem exists_smart_update {f : Addr → Option AListener} {x : Option AListener}
    (hf : f a ≠ some (.smart name)) (hx : x ≠ some (.smart name)) :
    (∃ b, update f a x b = some (.smart name)) ↔ ∃ b, f b = some (.smart name) := by
  constructor
  · rintro ⟨b, hb⟩
    rcases listener_of_update hb with ⟨-, hxs⟩ | ⟨-, hb⟩
    · exact absurd hxs hx
    · exact ⟨b, hb⟩
  · rintro ⟨b, hb⟩
    have hba : b ≠ a := by
      rintro rfl
      exact hf hb
    exact ⟨b, (update_of_ne hba _ _).trans hb⟩

theorem Ok.freeListener_survives (h : Ok R) (ha : R.listener a = some l)
    (hfree : R.freeListener a = some R') :
    Survives name R' ↔ Survives name R ∧ l.localName ≠ name := by
  rw [(h.freeListener hfree).survives_iff, h.survives_iff]
  rw [freeListener_eq ha, some.injEq] at hfree
  subst hfree
  by_cases hname : l.localName = name
  · -- the only listener of this name is gone
    simp only [hname, ne_eq, not_true_eq_false, and_false, iff_false, not_exists]
    intro b hb
    rcases listener_of_update hb with ⟨-, hnone⟩ | ⟨hba, hb⟩
    · cases hnone
    · exact hba (h.names b a _ l hb ha hname.symm)
  · have hne : R.listener a ≠ some (.smart name) := by
      rw [ha]
      rintro ⟨⟩
      exact hname rfl
    rw [and_iff_left hname]
    exact exists_smart_update hne nofun

theorem Ok.removeListener_none (h : Ok R) (hnone : R.removeListener name = none)
    (ha : R.listener a = some l) : l.localName ≠ name := by
  refine h.findListener_none ?_ ha
  cases hfind : R.findListener name with
  | none => rfl
  | some b =>
    obtain ⟨m, hm, -⟩ := findListener_some hfind
    rw [Registry.removeListener, hfind, bind_some, freeListener_eq hm] at hnone
    cases hnone

theorem not_removes {action : Forward.ForwardAction}
    (hreq : handleForwardRequest service = some action) (hother : action ≠ .removeListener name) :
    ¬∃ t, handleForwardRequest service = some (.removeListener name) ∧
      R.acquireOneTransport ttype serial = .ok t := by
  rintro ⟨_, hrem, -⟩
  exact hother (some.inj (hreq.symm.trans hrem))

theorem Ok.handled_survives (h : Ok R) (hreq : Handled R service ttype serial reply R') :
    Survives name R' ↔ Survives name R ∧
      ¬∃ t, handleForwardRequest service = some (.removeListener name) ∧
        R.acquireOneTransport ttype serial = .ok t := by
  have hok := h.handled hreq
  cases hreq with
  | unchanged _ hnone =>
    refine (and_iff_left_of_imp ?_).symm
    rintro ⟨a, -, ha⟩ ⟨t, hrem, hacq⟩
    exact h.removeListener_none (hnone name t hrem hacq) ha rfl
  | removedAll hreq hall =>
    obtain ⟨R₁, hR₁, -, hsame⟩ := h.removeAllListeners
    cases hR₁.symm.trans hall
    rw [and_iff_left (not_removes hreq nofun), hok.survives_iff, h.survives_iff]
    exact exists_congr fun a => hsame a _ (special_smart name)
  | @removed _ localName t hreq hacq hrem =>
    -- `remove_listener` looks at the name only, not at what the listener is for
    obtain ⟨a, hfind, hfree⟩ := bind_eq_some_iff.mp hrem
    obtain ⟨l, ha, hl⟩ := findListener_some hfind
    rw [h.freeListener_survives ha hfree, hl]
    refine and_congr_right fun _ => not_congr ⟨?_, ?_⟩
    · rintro rfl
      exact ⟨t, hreq, hacq⟩
    · rintro ⟨_, hrem, -⟩
      cases hreq.symm.trans hrem
      rfl
  | @rebound localName connectTo _ a l t hreq hacq ha hs =>
    have hne : R.listener a ≠ some (.smart name) := by
      rw [ha]
      rintro ⟨⟩
      exact absurd (hs.symm.trans (special_smart name)) nofun
    rw [and_iff_left (not_removes hreq nofun), hok.survives_iff, h.survives_iff, rebind_frame]
    exact exists_smart_update hne nofun
  | @added localName connectTo _ t hreq hacq hfind =>
    have hne : R.listener R.nextAddr ≠ some (.smart name) := by
      rw [h.fresh _ le_rfl]
      nofun
    rw [and_iff_left (not_removes hreq nofun), hok.survives_iff, h.survives_iff]
    exact exists_smart_update hne nofun

theorem step_smart (h : Ok R) (hs : step R e = some R')
    (hother : ∀ service ttype serial env, e ≠ .request service ttype serial env) :
    R'.listener a = some (.smart name) ↔ R.listener a = some (.smart name) := by
  cases e with
  | request service ttype serial env => exact absurd rfl (hother service ttype serial env)
  | register | sockets =>
    rw [step] at hs
    split_ifs at hs
    cases hs
    rfl
  | change | unlist =>
    cases hs
    rfl
  | disconnects t =>
    rw [step] at hs
    split_ifs at hs
    obtain ⟨R₁, hR₁, -, hkept, -⟩ := h.runTransportDisconnects t
    cases hR₁.symm.trans hs
    exact hkept.others a _ nofun
  | remove t => exact (h.step_remove hs).2 a _ nofun

theorem survives_step (h : Ok R) (hs : step R e = some R') :
    Survives name R' ↔ Survives name R ∧ ¬Kills name R e := by
  by_cases he : ∃ service ttype serial env, e = .request service ttype serial env
  · obtain ⟨service, ttype, serial, env, rfl⟩ := he
    obtain ⟨⟨reply, R₁⟩, hreq, rfl⟩ := map_eq_some_iff.mp hs
    rw [h.handled_survives (handleForward_handled hreq)]
    refine and_congr_right fun _ => not_congr ⟨?_, ?_⟩
    · rintro ⟨t, hrem, hacq⟩
      exact ⟨service, ttype, serial, env, t, rfl, hrem, hacq⟩
    · rintro ⟨_, _, _, _, t, ⟨⟩, hrem, hacq⟩
      exact ⟨t, hrem, hacq⟩
  · have hkills : ¬Kills name R e := by
      rintro ⟨service, ttype, serial, env, _, rfl, -⟩
      exact he ⟨service, ttype, serial, env, rfl⟩
    rw [and_iff_left hkills, (step_ok h hs).survives_iff, h.survives_iff]
    exact exists_congr fun a => step_smart h hs
      fun service ttype serial env heq => he ⟨service, ttype, serial, env, heq⟩

theorem survives_exec {es : List Event} (h : Ok R) (hs : exec step R es = some R') :
    Survives name R' ↔ Survives name R ∧ Spared name R es := by
  induction es generalizing R with
  | nil =>
    cases hs
    exact (and_iff_left trivial).symm
  | cons e es ih =>
    obtain ⟨R₁, hstep, hrest⟩ := bind_eq_some_iff.mp hs
    have hall : (∀ R₂, step R e = some R₂ → Spared name R₂ es) ↔ Spared name R₁ es := by
      simp [hstep]
    rw [ih (step_ok h hstep) hrest, survives_step h hstep, Spared, hall, and_assoc]

theorem survives_init (device : TransportId → Device) (name : List Byte) :
    Survives name (init device name) :=
  ⟨0, mem_singleton_self 0, rfl⟩

/-- The port of the server is there for as long as nobody asks for its removal by its name: this
is the one check `remove_listener` does not make. -/
theorem control_port_iff (device : TransportId → Device) (name : List Byte) (es : List Event)
    (R : Registry) (h : exec step (init device name) es = some R) :
    Survives name R ↔ Spared name (init device name) es := by
  rw [survives_exec (ok_init device name) h, and_iff_right (survives_init device name)]

def phone : Device := ⟨.kTransportUsb, .device, some (text "A"), none, none, none, none⟩

def plainEnv : Env := ⟨true, fun _ => true⟩

/-- The port stays when a forward is made and all forwards are removed. -/
theorem control_port_killforward_all :
    ∃ R, exec step (init (fun _ => phone) (text "tcp:5037"))
        [.register 0 phone, .request (text "forward:tcp:1;tcp:2") .kTransportAny none plainEnv,
          .request (text "killforward-all") .kTransportAny none plainEnv] = some R ∧
      Survives (text "tcp:5037") R := by
  obtain ⟨R, hR⟩ := isSome_iff_exists.mp (show (exec step
    (init (fun _ => phone) (text "tcp:5037"))
    [.register 0 phone, .request (text "forward:tcp:1;tcp:2") .kTransportAny none plainEnv,
      .request (text "killforward-all") .kTransportAny none plainEnv]).isSome = true by
        decide +kernel)
  refine ⟨R, hR, (control_port_iff _ _ _ R hR).mpr
    ⟨?_, fun _ _ => ⟨?_, fun _ _ => ⟨?_, fun _ _ => trivial⟩⟩⟩⟩
  · rintro ⟨_, _, _, _, _, ⟨⟩, -⟩
  · rintro ⟨_, _, _, _, _, ⟨⟩, hrem, -⟩
    exact absurd hrem (by decide +kernel)
  · rintro ⟨_, _, _, _, _, ⟨⟩, hrem, -⟩
    exact absurd hrem (by decide +kernel)

/-- One request with the name of the port, and no client can connect any more. -/
theorem control_port_removed :
    ∃ R, exec step (init (fun _ => phone) (text "tcp:5037"))
        [.register 0 phone,
          .request (text "killforward:tcp:5037") .kTransportAny none plainEnv] = some R ∧
      R.listenerList = [] ∧ ¬Survives (text "tcp:5037") R := by
  have hempty : (exec step (init (fun _ => phone) (text "tcp:5037"))
      [.register 0 phone, .request (text "killforward:tcp:5037") .kTransportAny none plainEnv]).map
      (fun R => R.listenerList) = some [] := by decide +kernel
  obtain ⟨R, hR, hlist⟩ := map_eq_some_iff.mp hempty
  refine ⟨R, hR, hlist, ?_⟩
  rintro ⟨a, ha, -⟩
  rw [hlist] at ha
  cases ha

end ControlPort

/-- The listeners and their nodes agree in every state the server gets to, a request that fails
changes nothing, and a transport that disconnects has no listener left. -/
theorem registry_invariant (device : TransportId → Device) (name : List Byte) (R : Registry)
    (hrun : Run step (fun _ _ => True) (init device name) R) :
    R.listenerList.Nodup ∧
    (∀ a ∈ R.listenerList, ∀ b ∈ R.listenerList, ∀ l m, R.listener a = some l →
      R.listener b = some m → l.localName = m.localName → a = b) ∧
    (∀ a ∈ R.listenerList, ∃ l, R.listener a = some l ∧
      (l.connectTo ≠ text "*smartsocket*" → ∃ t, l.transport = some t ∧ R.live t = true ∧
        (R.disconnects t).count (.listener a) = 1 ∧
        ∀ u, u ≠ t → .listener a ∉ R.disconnects u)) ∧
    (∀ env service ttype serial reason R',
      R.handleForward env service ttype serial = some (.fail reason, R') → R' = R) ∧
    ∀ t, ∃ R', R.runTransportDisconnects t = some R' ∧
      ∀ a l, R'.listener a = some l → l.transport ≠ some t := by
  have h := run_ok hrun
  refine ⟨h.nodup, fun a _ b _ => h.names a b, ?_, ?_, ?_⟩
  · intro a ha
    obtain ⟨l, hl⟩ := ne_none_iff_exists'.mp ((h.listed a).mp ha)
    refine ⟨l, hl, fun hne => ?_⟩
    have htransport : l.transport ≠ none := by
      rcases h.bound a l hl with ⟨-, hsmart⟩ | ⟨hsome, -⟩
      · exact absurd hsmart hne
      · exact hsome
    obtain ⟨t, ht⟩ := ne_none_iff_exists'.mp htransport
    refine ⟨t, ht, h.live a l t hl ht, ?_, ?_⟩
    · exact count_eq_one_of_mem (h.single t) ((h.nodes a t).mpr ⟨l, hl, ht⟩)
    · intro u hu hmem
      obtain ⟨m, hm, hmu⟩ := (h.nodes a u).mp hmem
      cases hl.symm.trans hm
      exact hu (some.inj (hmu.symm.trans ht))
  · intro env service ttype serial reason R' hfail
    cases handleForward_handled hfail
    rfl
  · intro t
    obtain ⟨R', hR', hok, -, hempty⟩ := h.runTransportDisconnects t
    exact ⟨R', hR', fun a l ha => hok.not_on hempty ha⟩

/-- A forward that is bound again to another device, which then disconnects. -/
theorem registry_invariant_rebound :
    ∃ R, exec step (init (fun _ => phone) (text "tcp:5037"))
        [.register 0 phone, .request (text "forward:tcp:1;tcp:2") .kTransportAny none plainEnv,
          .register 1 { phone with serial := some (text "B") },
          .request (text "forward:tcp:1;tcp:3") .kTransportAny (some (text "B")) plainEnv] =
        some R ∧
      R.listenerList = [0, 1] ∧ R.disconnects 0 = [] ∧ R.disconnects 1 = [.listener 1] ∧
      ∃ R', R.runTransportDisconnects 1 = some R' ∧
        ∀ a l, R'.listener a = some l → l.transport ≠ some 1 := by
  have hlists : (exec step (init (fun _ => phone) (text "tcp:5037"))
      [.register 0 phone, .request (text "forward:tcp:1;tcp:2") .kTransportAny none plainEnv,
        .register 1 { phone with serial := some (text "B") },
        .request (text "forward:tcp:1;tcp:3") .kTransportAny (some (text "B")) plainEnv]).map
      (fun R => (R.listenerList, R.disconnects 0, R.disconnects 1)) =
        some ([0, 1], [], [.listener 1]) := by decide +kernel
  obtain ⟨R, hR, heq⟩ := map_eq_some_iff.mp hlists
  simp only [Prod.mk.injEq] at heq
  have hrun := Runs.run_of_exec (fun _ _ _ => trivial) hR
  exact ⟨R, hR, heq.1, heq.2.1, heq.2.2, (registry_invariant _ _ R hrun).2.2.2.2 1⟩

end Registry

end PaxAdb.Listeners
