import PaxAdb.AcquireTransport
import PaxAdb.ForwardRequest
import PaxAdb.Walk

/-!
# Listeners

`listener_list` holds the port of the server itself, whose clients get a smart socket, and the
ports that are forwarded to a device. A forward has a node on the list of disconnect callbacks of
its transport, between the nodes of the remote sockets, and is removed when these are called.
-/

namespace PaxAdb.Listeners

open Function (update update_self update_of_ne)
open Sockets (Addr TransportId TransportKind ConnectionState text)
open Forward (handleForwardRequest)
open Selection (Device outcome round)
open Walk (walkAll)

inductive Node where
  | listener (a : Addr)
  | socket (a : Addr)
  deriving DecidableEq, Repr

def Node.isListener : Node → Bool
  | .listener _ => true
  | .socket _ => false

structure AListener where
  localName : List Byte
  connectTo : List Byte
  transport : Option TransportId
  deriving DecidableEq, Repr

/-- The first character is the one of `*smartsocket*`. -/
def AListener.special (l : AListener) : Bool := l.connectTo.head? = some 0x2a

def AListener.smart (localName : List Byte) : AListener := ⟨localName, text "*smartsocket*", none⟩

structure Registry where
  /-- the listeners by their address; `none` is free memory -/
  listener : Addr → Option AListener
  nextAddr : Addr
  listenerList : List Addr
  disconnects : TransportId → List Node
  transportList : List TransportId
  device : TransportId → Device
  /-- the transports that have not been freed -/
  live : TransportId → Bool

structure Env where
  /-- memory is left -/
  memory : Bool
  /-- `local_name_to_fd` has a descriptor for this name -/
  bind : List Byte → Bool

namespace Registry

variable (R : Registry)

def acquireOneTransport (ttype : TransportKind) (serial : Option (List Byte)) :
    Except (List Byte) TransportId :=
  outcome (round R.device none (some ttype) serial R.transportList false)

def addTransportDisconnect (t : Option TransportId) (n : Node) : Registry :=
  match t with
  | none => R
  | some t => { R with disconnects := update R.disconnects t (R.disconnects t ++ [n]) }

def removeTransportDisconnect (t : Option TransportId) (n : Node) : Registry :=
  match t with
  | none => R
  | some t => { R with disconnects := update R.disconnects t ((R.disconnects t).erase n) }

def freeListener (a : Addr) : Option Registry :=
  (R.listener a).map fun l =>
    { R.removeTransportDisconnect l.transport (.listener a) with
      listener := update R.listener a none
      listenerList := R.listenerList.erase a }

def findListener (localName : List Byte) : Option Addr :=
  R.listenerList.find? fun a => (R.listener a).any (·.localName = localName)

def removeListener (localName : List Byte) : Option Registry :=
  (R.findListener localName).bind R.freeListener

def removeUnlessSpecial (a : Addr) (R : Registry) : Option Registry :=
  (R.listener a).bind fun l => if l.special then some R else R.freeListener a

def removeAllListeners : Option Registry :=
  (walkAll (·.listenerList) removeUnlessSpecial R).map Prod.fst

def rebind (a : Addr) (l : AListener) (connectTo : List Byte) (t : Option TransportId) : Registry :=
  let R' := { R with listener := update R.listener a (some ⟨l.localName, connectTo, t⟩) }
  if l.transport ≠ t then
    (R'.removeTransportDisconnect l.transport (.listener a)).addTransportDisconnect t (.listener a)
  else R'

def addListener (l : AListener) : Registry :=
  { R.addTransportDisconnect l.transport (.listener R.nextAddr) with
    listener := update R.listener R.nextAddr (some l)
    nextAddr := R.nextAddr + 1
    listenerList := R.listenerList ++ [R.nextAddr] }

end Registry

inductive InstallStatus where
  | ok
  | internalError
  | cannotBind
  | cannotRebind
  deriving DecidableEq, Repr

namespace Registry

variable (env : Env) (R : Registry)

/-- `none` is the `fatal` of a server without memory. -/
def installListener (localName connectTo : List Byte) (t : Option TransportId) (noRebind : Bool) :
    Option (InstallStatus × Registry) :=
  match R.findListener localName with
  | some a =>
      (R.listener a).map fun l =>
        if l.special then (.internalError, R)
        else if noRebind then (.cannotRebind, R)
        else if ¬env.memory then (.internalError, R)
        else (.ok, R.rebind a l connectTo t)
  | none =>
      if ¬env.memory then none
      else if ¬env.bind localName then some (.cannotBind, R)
      else some (.ok, R.addListener ⟨localName, connectTo, t⟩)

def formatListener (l : AListener) : List Byte :=
  let serial := (l.transport.bind fun t => (R.device t).serial).getD []
  serial ++ text " " ++ l.localName ++ text " " ++ l.connectTo ++ text "\n"

def formatListeners : List Byte :=
  R.listenerList.flatMap fun a =>
    match R.listener a with
    | some l => if l.special then [] else R.formatListener l
    | none => []

end Registry

/-- What a client is sent: `OKAY` twice, `OKAY` and a message, or `FAIL` and a reason. -/
inductive Reply where
  | okay
  | message (bytes : List Byte)
  | fail (reason : List Byte)
  deriving DecidableEq, Repr

def InstallStatus.reply : InstallStatus → Reply
  | .ok => .okay
  | .internalError => .fail (text "internal error")
  | .cannotBind => .fail (text "cannot bind to socket")
  | .cannotRebind => .fail (text "cannot rebind existing socket")

namespace Registry

variable (env : Env) (R : Registry)

def withTransport (ttype : TransportKind) (serial : Option (List Byte))
    (f : TransportId → Option (Reply × Registry)) : Option (Reply × Registry) :=
  match R.acquireOneTransport ttype serial with
  | .error error => some (.fail error, R)
  | .ok t => f t

/-- `handle_forward_request`; `none` when the request is no such request, or the server ends. -/
def handleForward (service : List Byte) (ttype : TransportKind) (serial : Option (List Byte)) :
    Option (Reply × Registry) :=
  match handleForwardRequest service with
  | none => none
  | some .listListeners =>
      if env.memory then some (.message R.formatListeners, R)
      else some (.fail (text "not enough memory"), R)
  | some .removeAllListeners => R.removeAllListeners.map fun R => (.okay, R)
  | some .malformed => some (.fail (text "malformed forward spec"), R)
  | some (.installListener localName connectTo noRebind) =>
      R.withTransport ttype serial fun t =>
        (R.installListener env localName connectTo (some t) noRebind).map fun r =>
          (r.1.reply, r.2)
  | some (.removeListener localName) =>
      R.withTransport ttype serial fun _ =>
        match R.removeListener localName with
        | some R => some (.okay, R)
        | none => some (.fail (text "cannot remove listener"), R)

def disconnectCall (t : TransportId) (n : Node) (R : Registry) : Option Registry :=
  match n with
  | .listener a => R.freeListener a
  | .socket _ => some (R.removeTransportDisconnect (some t) n)

def runTransportDisconnects (t : TransportId) : Option Registry :=
  (walkAll (fun R => R.disconnects t) (disconnectCall t) R).map Prod.fst

def init (device : TransportId → Device) (localName : List Byte) : Registry :=
  addListener ⟨fun _ => none, 0, [], fun _ => [], [], device, fun _ => false⟩
    (.smart localName)

end Registry

inductive Event where
  | request (service : List Byte) (ttype : TransportKind) (serial : Option (List Byte)) (env : Env)
  /-- a transport gets on `transport_list` -/
  | register (t : TransportId) (d : Device)
  /-- the connection state or the qualifiers of a transport change -/
  | change (t : TransportId) (d : Device)
  /-- a transport is taken off `transport_list` -/
  | unlist (t : TransportId)
  /-- remote sockets come and go -/
  | sockets (t : TransportId) (nodes : List Node)
  /-- a transport goes offline -/
  | disconnects (t : TransportId)
  /-- a transport is taken off its list and freed -/
  | remove (t : TransportId)

/-- `transport_list` is a plain list here, of transports that have not been freed. It is one as
long as every second unlinking of a transport is harmless, see `Lifecycle.UnlinkSafe`. -/
def step (R : Registry) : Event → Option Registry
  | .request service ttype serial env =>
      (R.handleForward env service ttype serial).map Prod.snd
  | .register t d =>
      if R.live t then none
      else some { R with
        transportList := R.transportList ++ [t]
        disconnects := update R.disconnects t []
        device := update R.device t d
        live := update R.live t true }
  | .change t d => some { R with device := update R.device t d }
  | .unlist t => some { R with transportList := R.transportList.filter (· ≠ t) }
  | .sockets t nodes =>
      if R.live t ∧ nodes.Nodup ∧
          nodes.filter Node.isListener = (R.disconnects t).filter Node.isListener then
        some { R with disconnects := update R.disconnects t nodes }
      else none
  | .disconnects t => if R.live t then R.runTransportDisconnects t else none
  | .remove t =>
      if R.live t then
        ({ R with transportList := R.transportList.filter (· ≠ t) } : Registry)
          |>.runTransportDisconnects t |>.map fun R =>
            { R with live := update R.live t false }
      else none

/-- The port of the server, or a forward to a device. -/
def AListener.Bound (l : AListener) : Prop :=
  l.transport = none ∧ l.connectTo = text "*smartsocket*" ∨
    l.transport ≠ none ∧ l.special = false

structure Registry.Ok (R : Registry) : Prop where
  nodup : R.listenerList.Nodup
  listed : ∀ a, a ∈ R.listenerList ↔ R.listener a ≠ none
  fresh : ∀ a, R.nextAddr ≤ a → R.listener a = none
  names : ∀ a b l m, R.listener a = some l → R.listener b = some m →
    l.localName = m.localName → a = b
  nodes : ∀ a t, .listener a ∈ R.disconnects t ↔
    ∃ l, R.listener a = some l ∧ l.transport = some t
  single : ∀ t, (R.disconnects t).Nodup
  live : ∀ a l t, R.listener a = some l → l.transport = some t → R.live t = true
  bound : ∀ a l, R.listener a = some l → l.Bound
  onList : ∀ t ∈ R.transportList, R.live t = true

namespace Registry

variable {R R' : Registry} {a b : Addr} {l : AListener} {t u : TransportId} {n m : Node}
  {o : Option TransportId}

section Nodes

theorem mem_addTransportDisconnect :
    m ∈ (R.addTransportDisconnect o n).disconnects t ↔
      m ∈ R.disconnects t ∨ o = some t ∧ m = n := by
  cases o with
  | none => simp [addTransportDisconnect]
  | some u =>
    by_cases htu : t = u
    · subst htu
      simp [addTransportDisconnect]
    · simp [addTransportDisconnect, htu, Ne.symm htu]

theorem mem_removeTransportDisconnect (h : (R.disconnects t).Nodup) :
    m ∈ (R.removeTransportDisconnect o n).disconnects t ↔
      m ∈ R.disconnects t ∧ ¬(o = some t ∧ m = n) := by
  cases o with
  | none => simp [removeTransportDisconnect]
  | some u =>
    by_cases htu : t = u
    · subst htu
      simp [removeTransportDisconnect, h.mem_erase_iff, and_comm]
    · simp [removeTransportDisconnect, htu, Ne.symm htu]

theorem nodup_addTransportDisconnect (h : (R.disconnects t).Nodup)
    (hn : o = some t → n ∉ R.disconnects t) :
    ((R.addTransportDisconnect o n).disconnects t).Nodup := by
  cases o with
  | none => exact h
  | some u =>
    by_cases htu : t = u
    · subst htu
      simp only [addTransportDisconnect, update_self]
      exact h.append (List.nodup_singleton n) (List.disjoint_singleton.mpr (hn rfl))
    · simpa [addTransportDisconnect, htu] using h

theorem nodup_removeTransportDisconnect (h : (R.disconnects t).Nodup) :
    ((R.removeTransportDisconnect o n).disconnects t).Nodup := by
  cases o with
  | none => exact h
  | some u =>
    by_cases htu : t = u
    · subst htu
      simp only [removeTransportDisconnect, update_self]
      exact h.erase n
    · simpa [removeTransportDisconnect, htu] using h

theorem addTransportDisconnect_frame (R : Registry) (o : Option TransportId) (n : Node) :
    R.addTransportDisconnect o n =
      { R with disconnects := (R.addTransportDisconnect o n).disconnects } := by
  cases o <;> rfl

theorem removeTransportDisconnect_frame (R : Registry) (o : Option TransportId) (n : Node) :
    R.removeTransportDisconnect o n =
      { R with disconnects := (R.removeTransportDisconnect o n).disconnects } := by
  cases o <;> rfl

end Nodes

section Ok

theorem Ok.frame (h : Ok R) (hl : R'.listener = R.listener) (hnext : R'.nextAddr = R.nextAddr)
    (hlist : R'.listenerList = R.listenerList)
    (hnodes : ∀ a t, .listener a ∈ R'.disconnects t ↔ .listener a ∈ R.disconnects t)
    (hsingle : ∀ t, (R'.disconnects t).Nodup)
    (hlive : ∀ a l t, R.listener a = some l → l.transport = some t → R'.live t = true)
    (honList : ∀ t ∈ R'.transportList, R'.live t = true) : Ok R' where
  nodup := hlist ▸ h.nodup
  listed a := by rw [hlist, hl, h.listed]
  fresh a ha := by rw [hl, h.fresh a (hnext ▸ ha)]
  names := hl ▸ h.names
  nodes a t := by rw [hnodes, h.nodes, hl]
  single := hsingle
  live a l t ha := hlive a l t (hl ▸ ha)
  bound a l ha := h.bound a l (hl ▸ ha)
  onList := honList

theorem freeListener_eq (ha : R.listener a = some l) :
    R.freeListener a = some
      { R with
        listener := update R.listener a none
        listenerList := R.listenerList.erase a
        disconnects := (R.removeTransportDisconnect l.transport (.listener a)).disconnects } := by
  rw [freeListener, ha, Option.map_some, removeTransportDisconnect_frame]

theorem listener_of_update {f : Addr → Option AListener} {x : Option AListener}
    (h : update f a x b = some l) : b = a ∧ x = some l ∨ b ≠ a ∧ f b = some l := by
  by_cases hb : b = a
  · subst hb
    rw [update_self] at h
    exact .inl ⟨rfl, h⟩
  · rw [update_of_ne hb] at h
    exact .inr ⟨hb, h⟩

theorem Ok.freeListener (h : Ok R) (hR' : R.freeListener a = some R') : Ok R' := by
  cases ha : R.listener a with
  | none =>
    rw [Registry.freeListener, ha] at hR'
    cases hR'
  | some l =>
    rw [freeListener_eq ha, Option.some.injEq] at hR'
    subst hR'
    have hold : ∀ b l, update R.listener a none b = some l → R.listener b = some l := by
      intro b l hb
      rcases listener_of_update hb with ⟨-, hnone⟩ | ⟨-, hb⟩
      · cases hnone
      · exact hb
    refine ⟨h.nodup.erase a, ?_, ?_, ?_, ?_, ?_, ?_, ?_, h.onList⟩
    · intro b
      rw [h.nodup.mem_erase_iff, h.listed]
      by_cases hb : b = a
      · simp [hb]
      · simp [hb]
    · intro b hb
      by_cases hba : b = a
      · simp [hba]
      · simpa [hba] using h.fresh b hb
    · intro b c l m hb hc
      exact h.names b c l m (hold b l hb) (hold c m hc)
    · intro b t
      rw [mem_removeTransportDisconnect (h.single t), h.nodes]
      by_cases hb : b = a
      · subst hb
        simp [ha]
      · simp [hb]
    · exact fun t => nodup_removeTransportDisconnect (h.single t)
    · exact fun b l t hb => h.live b l t (hold b l hb)
    · exact fun b l hb => h.bound b l (hold b l hb)

theorem Ok.addListener (h : Ok R)
    (hname : ∀ a m, R.listener a = some m → m.localName ≠ l.localName)
    (hbound : l.Bound)
    (hlive : ∀ t, l.transport = some t → R.live t = true) : Ok (R.addListener l) := by
  have hnew : R.listener R.nextAddr = none := h.fresh _ le_rfl
  have hnode : ∀ t, .listener R.nextAddr ∉ R.disconnects t := by
    intro t hmem
    obtain ⟨m, hm, -⟩ := (h.nodes _ t).mp hmem
    exact absurd (hnew.symm.trans hm) nofun
  have hnot : R.nextAddr ∉ R.listenerList := fun hmem => (h.listed _).mp hmem hnew
  rw [Registry.addListener, addTransportDisconnect_frame]
  refine ⟨?_, ?_, ?_, ?_, ?_, ?_, ?_, ?_, h.onList⟩
  · exact h.nodup.append (List.nodup_singleton _) (List.disjoint_singleton.mpr hnot)
  · intro b
    rw [List.mem_append, List.mem_singleton, h.listed]
    by_cases hb : b = R.nextAddr
    · simp [hb]
    · simp [hb]
  · intro b hb
    have hlt : R.nextAddr < b := hb
    exact (update_of_ne hlt.ne' _ _).trans (h.fresh b hlt.le)
  · intro b c m m' hb hc hsame
    rcases listener_of_update hb with ⟨rfl, hm⟩ | ⟨-, hb⟩
    · rcases listener_of_update hc with ⟨rfl, -⟩ | ⟨-, hc⟩
      · rfl
      · cases hm
        exact absurd hsame.symm (hname c m' hc)
    · rcases listener_of_update hc with ⟨rfl, hm⟩ | ⟨-, hc⟩
      · cases hm
        exact absurd hsame (hname b m hb)
      · exact h.names b c m m' hb hc hsame
  · intro b t
    rw [mem_addTransportDisconnect, h.nodes]
    by_cases hb : b = R.nextAddr
    · subst hb
      simp [hnew]
    · simp [hb]
  · exact fun t => nodup_addTransportDisconnect (h.single t) fun _ => hnode t
  · intro b m t hb
    rcases listener_of_update hb with ⟨-, hm⟩ | ⟨-, hb⟩
    · cases hm
      exact hlive t
    · exact h.live b m t hb
  · intro b m hb
    rcases listener_of_update hb with ⟨-, hm⟩ | ⟨-, hb⟩
    · cases hm
      exact hbound
    · exact h.bound b m hb

theorem rebind_frame (R : Registry) (a : Addr) (l : AListener) (connectTo : List Byte)
    (o : Option TransportId) :
    R.rebind a l connectTo o = { R with
      listener := update R.listener a (some ⟨l.localName, connectTo, o⟩)
      disconnects := (R.rebind a l connectTo o).disconnects } := by
  rw [rebind]
  split
  · rw [addTransportDisconnect_frame, removeTransportDisconnect_frame]
  · rfl

theorem Ok.rebind_nodes (h : Ok R) (ha : R.listener a = some l) (connectTo : List Byte) :
    .listener b ∈ (R.rebind a l connectTo (some t)).disconnects u ↔
      b = a ∧ t = u ∨ b ≠ a ∧ .listener b ∈ R.disconnects u := by
  have hmem : .listener a ∈ R.disconnects u ↔ l.transport = some u := by
    rw [h.nodes]
    simp [ha]
  rw [rebind]
  split
  next hne =>
    rw [mem_addTransportDisconnect, mem_removeTransportDisconnect]
    · by_cases hb : b = a
      · subst hb
        simp [hmem]
      · simp [hb]
    · exact h.single u
  next heq =>
    rw [not_not] at heq
    by_cases hb : b = a
    · subst hb
      simp [hmem, heq]
    · simp [hb]

theorem Ok.rebind_single (h : Ok R) (ha : R.listener a = some l) (connectTo : List Byte)
    (u : TransportId) : ((R.rebind a l connectTo (some t)).disconnects u).Nodup := by
  rw [Registry.rebind]
  split
  next hne =>
    refine nodup_addTransportDisconnect (nodup_removeTransportDisconnect (h.single u)) ?_
    intro htu hmem
    rw [mem_removeTransportDisconnect] at hmem
    · obtain ⟨m, hm, ht⟩ := (h.nodes a u).mp hmem.1
      cases ha.symm.trans hm
      exact hne (ht.trans htu.symm)
    · exact h.single u
  next => exact h.single u

theorem Ok.rebind (h : Ok R) (ha : R.listener a = some l) {connectTo : List Byte}
    (hcto : connectTo.head? ≠ some 0x2a) (hlive : R.live t = true) :
    Ok (R.rebind a l connectTo (some t)) := by
  rw [rebind_frame]
  refine ⟨h.nodup, ?_, ?_, ?_, ?_, h.rebind_single ha connectTo, ?_, ?_, h.onList⟩
  · intro b
    rw [h.listed]
    by_cases hb : b = a
    · simp [hb, ha]
    · simp [hb]
  · intro b hb
    have hba : b ≠ a := by
      rintro rfl
      exact absurd (ha.symm.trans (h.fresh b hb)) nofun
    exact (update_of_ne hba _ _).trans (h.fresh b hb)
  · -- the listener keeps its name
    intro b c m m' hb hc hsame
    rcases listener_of_update hb with ⟨rfl, hm⟩ | ⟨-, hold⟩
    · rcases listener_of_update hc with ⟨rfl, -⟩ | ⟨-, hc⟩
      · rfl
      · cases hm
        exact h.names b c l m' ha hc hsame
    · rcases listener_of_update hc with ⟨rfl, hm⟩ | ⟨-, hc⟩
      · cases hm
        exact h.names b c m l hold ha hsame
      · exact h.names b c m m' hold hc hsame
  · intro b u
    rw [h.rebind_nodes ha, h.nodes]
    by_cases hb : b = a
    · subst hb
      simp
    · simp [hb]
  · intro b m u hb hu
    rcases listener_of_update hb with ⟨-, hm⟩ | ⟨-, hb⟩
    · cases hm
      cases hu
      exact hlive
    · exact h.live b m u hb hu
  · intro b m hb
    rcases listener_of_update hb with ⟨-, hm⟩ | ⟨-, hb⟩
    · cases hm
      simp [AListener.Bound, AListener.special, hcto]
    · exact h.bound b m hb

end Ok

section Walks

structure Kept (t : TransportId) (R R' : Registry) : Prop where
  others : ∀ a l, l.transport ≠ some t → (R'.listener a = some l ↔ R.listener a = some l)
  lists : ∀ u, u ≠ t → R'.disconnects u = R.disconnects u
  transportList : R'.transportList = R.transportList
  live : R'.live = R.live

theorem Kept.refl (t : TransportId) (R : Registry) : Kept t R R :=
  ⟨fun _ _ _ => Iff.rfl, fun _ _ => rfl, rfl, rfl⟩

theorem Kept.trans {R'' : Registry} (h : Kept t R R') (h' : Kept t R' R'') : Kept t R R'' :=
  ⟨fun a l hl => (h'.others a l hl).trans (h.others a l hl),
    fun u hu => (h'.lists u hu).trans (h.lists u hu), h'.transportList.trans h.transportList,
    h'.live.trans h.live⟩

theorem kept_freeListener (ha : R.listener a = some l) (ht : l.transport = some t)
    (hR' : R.freeListener a = some R') : Kept t R R' := by
  rw [freeListener_eq ha, Option.some.injEq] at hR'
  subst hR'
  refine ⟨?_, ?_, rfl, rfl⟩
  · intro b m hm
    by_cases hb : b = a
    · subst hb
      have hne : R.listener b ≠ some m := by
        rw [ha]
        rintro ⟨⟩
        exact hm ht
      simp [hne]
    · simp [hb]
  · intro u hu
    simp [removeTransportDisconnect, ht, hu]

theorem leaves_disconnects (R₀ : Registry) (t : TransportId) :
    Walk.Leaves (fun R => R.disconnects t) (disconnectCall t)
      (fun R => Ok R ∧ Kept t R₀ R) := by
  rintro R n ⟨h, hkept⟩ hn
  cases n with
  | listener a =>
    obtain ⟨l, ha, ht⟩ := (h.nodes a t).mp hn
    have hfree := freeListener_eq ha
    refine ⟨_, hfree, ⟨h.freeListener hfree, hkept.trans (kept_freeListener ha ht hfree)⟩, ?_⟩
    simp [removeTransportDisconnect, ht]
  | socket p =>
    refine ⟨_, rfl, ⟨?_, hkept.trans ⟨fun _ _ _ => Iff.rfl, ?_, rfl, rfl⟩⟩, ?_⟩
    · refine h.frame rfl rfl rfl ?_ ?_ h.live h.onList
      · intro a u
        rw [mem_removeTransportDisconnect (h.single u)]
        simp
      · exact fun u => nodup_removeTransportDisconnect (h.single u)
    · intro u hu
      exact update_of_ne hu _ _
    · exact update_self _ _ _

theorem Ok.runTransportDisconnects (h : Ok R) (t : TransportId) :
    ∃ R', R.runTransportDisconnects t = some R' ∧ Ok R' ∧ Kept t R R' ∧ R'.disconnects t = [] := by
  obtain ⟨R', hwalk, ⟨hok, hkept⟩, hempty, -⟩ :=
    Walk.walkAll_leaves (leaves_disconnects R t) ⟨h, Kept.refl t R⟩ (h.single t)
  exact ⟨R', by rw [Registry.runTransportDisconnects, hwalk]; rfl, hok, hkept, hempty⟩

theorem Ok.not_on (h : Ok R) (hempty : R.disconnects t = []) (ha : R.listener a = some l) :
    l.transport ≠ some t := by
  intro ht
  have hmem := (h.nodes a t).mpr ⟨l, ha, ht⟩
  rw [hempty] at hmem
  cases hmem

theorem Ok.removeAllListeners (h : Ok R) :
    ∃ R', R.removeAllListeners = some R' ∧ Ok R' ∧
      ∀ a l, l.special = true → (R'.listener a = some l ↔ R.listener a = some l) := by
  have hsteps : Walk.Steps (fun R => R.listenerList) removeUnlessSpecial (fun R' => Ok R' ∧
      ∀ a l, l.special = true → (R'.listener a = some l ↔ R.listener a = some l)) := by
    rintro R₁ a ⟨h₁, hsame⟩ ha
    obtain ⟨l, hl⟩ := Option.ne_none_iff_exists'.mp ((h₁.listed a).mp ha)
    rw [removeUnlessSpecial, hl, Option.bind_some]
    cases hs : l.special with
    | true => exact ⟨R₁, rfl, ⟨h₁, hsame⟩, .inr rfl⟩
    | false =>
      have hfree := freeListener_eq hl
      refine ⟨_, hfree, ⟨h₁.freeListener hfree, ?_⟩, .inl rfl⟩
      intro b m hm
      rw [← hsame b m hm]
      by_cases hb : b = a
      · subst hb
        have hne : R₁.listener b ≠ some m := by
          rw [hl]
          rintro ⟨⟩
          exact absurd (hm.symm.trans hs) nofun
        simp [hne]
      · simp [hb]
  obtain ⟨R', hwalk, ⟨hok, hsame⟩, -⟩ :=
    Walk.walkAll_eq_foldlM hsteps ⟨h, fun _ _ _ => Iff.rfl⟩ h.nodup
  exact ⟨R', by rw [Registry.removeAllListeners, hwalk]; rfl, hok, hsame⟩

end Walks

end Registry

end PaxAdb.Listeners
