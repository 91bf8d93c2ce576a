import PaxAdb.Lifecycle
import PaxAdb.Runs

/-!
# Kicking and closing a transport

Five functions test and set `kicked` and count references down, from any thread. A section that
holds `transport_lock` is one step here. `kick_transport` looks at `kicked` once before its section,
and calls `t->kick` after it; `log` is what has been called and posted.
-/

namespace PaxAdb.Teardown

open Ring Runs List Function
open Lifecycle (TransportId TransportType)

inductive Node where
  | transportList
  | node (t : TransportId)
  deriving DecidableEq, Repr

structure Transport where
  kicked : Bool
  refCount : ℤ
  type : TransportType
  adbPort : ℕ
  deriving DecidableEq, Repr

inductive Event where
  | kick (t : TransportId)
  | close (t : TransportId)
  | post (t : TransportId)
  deriving DecidableEq, Repr

/-- Where a thread stands: before the first test of `kick_transport`, before its locked section, or
before the call of `t->kick` it won there, with or without `transport_unref` to follow; or before
the locked section of `transport_unref` or of `unregister_transport`. -/
inductive Pc where
  | idle
  | check (t : TransportId) (thenUnref : Bool)
  | lock (t : TransportId) (thenUnref : Bool)
  | callKick (t : TransportId) (thenUnref : Bool)
  | unref (t : TransportId)
  | unlink (t : TransportId)
  deriving DecidableEq, Repr

structure World where
  links : Links Node
  /-- the transport has been put on one of the two lists and not been taken off since -/
  linked : TransportId → Bool
  transport : TransportId → Transport
  thread : ℕ → Pc
  log : List Event

namespace World

variable (w : World)

def setTransport (t : TransportId) (x : Transport) : World :=
  { w with transport := update w.transport t x }

def setThread (i : ℕ) (pc : Pc) : World :=
  { w with thread := update w.thread i pc }

def record (e : Event) : World := { w with log := w.log ++ [e] }

def unlink (t : TransportId) : World :=
  { w with links := w.links.unlink (.node t), linked := update w.linked t false }

def kickOnce (t : TransportId) : World :=
  if (w.transport t).kicked then w
  else (w.setTransport t { w.transport t with kicked := true }).record (.kick t)

/-- `transport_unref_locked`; a decrement of the smallest `int` is undefined. -/
def transportUnrefLocked (t : TransportId) : Option World :=
  let x := w.transport t
  if x.refCount = -2 ^ 31 then none
  else
    let w := w.setTransport t { x with refCount := x.refCount - 1 }
    if x.refCount - 1 = 0 then some (((w.kickOnce t).record (.close t)).record (.post t))
    else some w

def unregisterTcp (t : TransportId) : Option World :=
  if (w.transport t).type = .tcp ∧ (w.transport t).adbPort = 0 then
    ((w.unlink t).kickOnce t).transportUnrefLocked t
  else some w

def unregisterAllLoop : ℕ → Node → World → Option World
  | 0, _, _ => none
  | _ + 1, .transportList, w => some w
  | fuel + 1, .node t, w =>
      (w.unregisterTcp t).bind (unregisterAllLoop fuel (w.links.next (.node t)))

def closeUsbLoop : ℕ → Node → World → Option World
  | 0, _, _ => none
  | _ + 1, .transportList, w => some w
  | fuel + 1, .node t, w => closeUsbLoop fuel (w.links.next (.node t)) (w.kickOnce t)

def returned (t : TransportId) (thenUnref : Bool) : Pc := if thenUnref then .unref t else .idle

end World

/-- A call of one of the five functions; `none` is a null pointer. -/
inductive Call where
  | kickTransport (t : Option TransportId)
  | transportUnref (t : Option TransportId)
  | unregisterTransport (t : TransportId)
  | unregisterAllTcpTransports (fuel : ℕ)
  | closeUsbDevices (fuel : ℕ)
  deriving DecidableEq, Repr

inductive Action where
  | call (i : ℕ) (c : Call)
  | run (i : ℕ)
  deriving DecidableEq, Repr

namespace World

def start (w : World) (i : ℕ) : Call → Option World
  | .kickTransport none | .transportUnref none => some w
  | .kickTransport (some t) => some (w.setThread i (.check t false))
  | .transportUnref (some t) => some (w.setThread i (.unref t))
  | .unregisterTransport t => some (w.setThread i (.unlink t))
  | .unregisterAllTcpTransports fuel => unregisterAllLoop fuel (w.links.next .transportList) w
  | .closeUsbDevices fuel => closeUsbLoop fuel (w.links.next .transportList) w

def resume (w : World) (i : ℕ) : Option World :=
  match w.thread i with
  | .idle => none
  | .check t thenUnref =>
      if (w.transport t).kicked then some (w.setThread i (returned t thenUnref))
      else some (w.setThread i (.lock t thenUnref))
  | .lock t thenUnref =>
      if (w.transport t).kicked then some (w.setThread i (returned t thenUnref))
      else some ((w.setTransport t { w.transport t with kicked := true }).setThread i
        (.callKick t thenUnref))
  | .callKick t thenUnref => some ((w.record (.kick t)).setThread i (returned t thenUnref))
  | .unref t => (w.transportUnrefLocked t).map (·.setThread i .idle)
  | .unlink t => some ((w.unlink t).setThread i (.check t true))

def step (w : World) : Action → Option World
  | .call i c => if w.thread i = .idle then w.start i c else none
  | .run i => w.resume i

def AtKick (w : World) (t : TransportId) (i : ℕ) : Prop := ∃ u, w.thread i = .callKick t u

end World

section Phases

variable {t : TransportId} {w : World} {p : Phase}

/-- `t->kick` is not called after `t->close`. -/
def InOrder (t : TransportId) (log : List Event) : Prop :=
  log.Pairwise fun a b => a = .close t → b ≠ .kick t

/-- Kick, close and removal happen at most once, and in this order. -/
structure Orderly (t : TransportId) (log : List Event) : Prop where
  kick : log.count (.kick t) ≤ 1
  close : log.count (.close t) ≤ 1
  post : log.count (.post t) ≤ 1
  order : InOrder t log

def Event.transport : Event → TransportId
  | .kick t | .close t | .post t => t

/-- What has happened to a transport. It has been closed before it was kicked in the last two
phases, and a thread is about to call `t->kick` in `won` and `rushed`. -/
inductive Phase where
  | fresh
  | won
  | kicked
  | closed
  | rushed
  | late
  deriving DecidableEq, Repr

namespace Phase

def events (t : TransportId) : Phase → List Event
  | .fresh | .won => []
  | .kicked => [.kick t]
  | .closed => [.kick t, .close t, .post t]
  | .rushed => [.close t, .post t]
  | .late => [.close t, .post t, .kick t]

def Waits (p : Phase) : Prop := p = .won ∨ p = .rushed

def Ended (p : Phase) : Prop := p = .closed ∨ p = .rushed ∨ p = .late

def Bad (p : Phase) : Prop := p = .rushed ∨ p = .late

/-- after `kicked` has been tested, set and acted on -/
def kick (p : Phase) : Phase := if p = .fresh then .kicked else p

def close (p : Phase) : Phase := if p = .won then .rushed else .closed

def call (p : Phase) : Phase := if p = .rushed then .late else .kicked

end Phase

def About (t : TransportId) (e : Event) : Bool := e.transport = t

structure InPhase (t : TransportId) (w : World) (p : Phase) : Prop where
  kicked : (w.transport t).kicked = true ↔ p ≠ .fresh
  log : w.log.filter (About t) = p.events t
  waits : (∃ i, w.AtKick t i) ↔ p.Waits
  winner : ∀ i j, w.AtKick t i → w.AtKick t j → i = j
  ended : p.Ended → (w.transport t).refCount ≤ 0

theorem orderly_filter (t : TransportId) (log : List Event) :
    Orderly t (log.filter (About t)) ↔ Orderly t log := by
  have hcount : ∀ e : Event, e.transport = t → (log.filter (About t)).count e = log.count e :=
    fun e he => count_filter (by simp [About, he])
  have hkick := hcount (.kick t) rfl
  have hclose := hcount (.close t) rfl
  have hpost := hcount (.post t) rfl
  have horder : InOrder t (log.filter (About t)) ↔ InOrder t log := by
    rw [InOrder, InOrder, pairwise_filter]
    refine List.Pairwise.iff fun a b => ?_
    constructor
    · rintro h rfl rfl
      exact h (by simp [About, Event.transport]) (by simp [About, Event.transport]) rfl rfl
    · exact fun h _ _ => h
  constructor
  · rintro ⟨hk, hc, hp, ho⟩
    exact ⟨hkick ▸ hk, hclose ▸ hc, hpost ▸ hp, horder.mp ho⟩
  · rintro ⟨hk, hc, hp, ho⟩
    exact ⟨hkick.trans_le hk, hclose.trans_le hc, hpost.trans_le hp, horder.mpr ho⟩

theorem InPhase.orderly_iff (h : InPhase t w p) : Orderly t w.log ↔ p ≠ .late := by
  rw [← orderly_filter, h.log]
  constructor
  · rintro ho rfl
    exact (pairwise_cons.mp ho.order).1 (.kick t) (by simp) rfl rfl
  · intro hp
    cases p with
    | late => exact absurd rfl hp
    | fresh | won | kicked | closed | rushed =>
      constructor <;> simp [Phase.events, InOrder]

end Phases

section Sections

variable {t t' : TransportId} {w w' w'' : World}

/-- The last reference is dropped. -/
def Releases (t : TransportId) (w w' : World) : Prop :=
  0 < (w.transport t).refCount ∧ (w'.transport t).refCount ≤ 0

/-- What a locked section does to a transport. It leaves one alone or kicks it, and closes it with
its last reference. -/
structure Section (t : TransportId) (w w' : World) : Prop where
  thread : w'.thread = w.thread
  type : (w'.transport t).type = (w.transport t).type
  port : (w'.transport t).adbPort = (w.transport t).adbPort
  count : (w'.transport t).refCount ≤ (w.transport t).refCount
  log : w.log <+: w'.log
  use : (w'.transport t).kicked = (w.transport t).kicked ∧
      ((w.transport t).kicked = false → w'.linked t = w.linked t) ∨
    (w'.transport t).kicked = true ∧ w.log.count (.kick t) < w'.log.count (.kick t)
  posted : .post t ∈ w'.log → .post t ∈ w.log ∨ (w'.transport t).kicked = true
  phase : ∀ p, InPhase t w p → ∃ p', InPhase t w' p' ∧
    (p'.Bad ↔ p.Bad ∨ Releases t w w' ∧ p.Waits)

theorem not_releases (hcount : (w'.transport t).refCount = (w.transport t).refCount) :
    ¬Releases t w w' := by
  rw [Releases, hcount]
  omega

theorem Section.unrelated (hthread : w'.thread = w.thread) (ht : w'.transport t = w.transport t)
    (hlog : ∃ l, w'.log = w.log ++ l ∧ l.filter (About t) = [])
    (hlinked : w'.linked t = w.linked t) : Section t w w' := by
  obtain ⟨l, hlog, hl⟩ := hlog
  have hfilter : w'.log.filter (About t) = w.log.filter (About t) := by
    rw [hlog, filter_append, hl, append_nil]
  have hat : ∀ i, w'.AtKick t i ↔ w.AtKick t i := by
    intro i
    rw [World.AtKick, hthread, World.AtKick]
  refine ⟨hthread, by rw [ht], by rw [ht], by rw [ht], ⟨l, hlog.symm⟩,
    .inl ⟨by rw [ht], fun _ => hlinked⟩, fun hpost => ?_, fun p hp => ⟨p, ⟨?_, ?_, ?_, ?_, ?_⟩, ?_⟩⟩
  · rw [hlog, mem_append] at hpost
    refine hpost.imp_right fun hnew => ?_
    exact absurd (by simp [About, Event.transport]) (filter_eq_nil_iff.mp hl _ hnew)
  · rw [ht]
    exact hp.kicked
  · rw [hfilter]
    exact hp.log
  · simp only [hat]
    exact hp.waits
  · exact fun i j hi hj => hp.winner i j ((hat i).mp hi) ((hat j).mp hj)
  · rw [ht]
    exact hp.ended
  · exact (or_iff_left fun h => not_releases (by rw [ht]) h.1).symm

theorem Section.refl (t : TransportId) (w : World) : Section t w w :=
  .unrelated rfl rfl ⟨[], (append_nil _).symm, rfl⟩ rfl

theorem Section.waits (h : Section t w w') {p p' : Phase} (hp : InPhase t w p)
    (hp' : InPhase t w' p') : p'.Waits ↔ p.Waits := by
  rw [← hp.waits, ← hp'.waits]
  simp only [World.AtKick, h.thread]

theorem Section.trans (h : Section t w w') (h' : Section t w' w'') : Section t w w'' := by
  have hcount := h.count
  have hcount' := h'.count
  have hkicks := h.log.sublist.count_le (.kick t)
  have hkicks' := h'.log.sublist.count_le (.kick t)
  refine ⟨h'.thread.trans h.thread, h'.type.trans h.type, h'.port.trans h.port,
    h'.count.trans h.count, h.log.trans h'.log, ?_, fun hpost => ?_, fun p hp => ?_⟩
  · rcases h.use with ⟨hk, hlinked⟩ | ⟨hk, hlt⟩
    · rcases h'.use with ⟨hk', hlinked'⟩ | ⟨hk', hlt'⟩
      · exact .inl ⟨hk'.trans hk, fun hf => (hlinked' (hk.trans hf)).trans (hlinked hf)⟩
      · exact .inr ⟨hk', by omega⟩
    · rcases h'.use with ⟨hk', -⟩ | ⟨hk', -⟩
      · exact .inr ⟨hk'.trans hk, by omega⟩
      · exact .inr ⟨hk', by omega⟩
  · rcases h'.posted hpost with hold | hk
    · refine (h.posted hold).imp_right fun hk => ?_
      rcases h'.use with ⟨hk', -⟩ | ⟨hk', -⟩
      · exact hk'.trans hk
      · exact hk'
    · exact .inr hk
  · obtain ⟨p', hp', hbad⟩ := h.phase p hp
    obtain ⟨p'', hp'', hbad'⟩ := h'.phase p' hp'
    refine ⟨p'', hp'', ?_⟩
    rw [hbad', hbad, h.waits hp hp', or_assoc, ← or_and_right, Releases, Releases, Releases]
    refine or_congr_right (and_congr_left fun _ => ?_)
    omega

theorem setTransport_other (x : Transport) (h : t' ≠ t) : Section t w (w.setTransport t' x) :=
  .unrelated rfl (update_of_ne h.symm _ _) ⟨[], (append_nil _).symm, rfl⟩ rfl

theorem record_other {e : Event} (he : e.transport ≠ t) : Section t w (w.record e) :=
  .unrelated rfl rfl ⟨[e], rfl, by simp [About, he]⟩ rfl

theorem unlink_other (h : t' ≠ t) : Section t w (w.unlink t') :=
  .unrelated rfl rfl ⟨[], (append_nil _).symm, rfl⟩ (update_of_ne h.symm _ _)

@[simp] theorem transport_setTransport (w : World) (t : TransportId) (x : Transport) :
    (w.setTransport t x).transport t = x := update_self ..

theorem kickOnce_of_unkicked (hk : (w.transport t).kicked = false) : w.kickOnce t =
    (w.setTransport t { w.transport t with kicked := true }).record (.kick t) := by
  rw [World.kickOnce, if_neg (by simp [hk])]

theorem InPhase.kickOnce {p : Phase} (hp : InPhase t w p) : InPhase t (w.kickOnce t) p.kick := by
  by_cases hfresh : p = .fresh
  · have hk : (w.transport t).kicked = false := by simpa [hfresh] using hp.kicked
    subst hfresh
    rw [kickOnce_of_unkicked hk]
    refine ⟨by simp [World.record, Phase.kick], ?_, ?_, hp.winner,
      by simp [Phase.Ended, Phase.kick]⟩
    · simp [World.record, World.setTransport, filter_append, hp.log, About, Event.transport,
        Phase.events, Phase.kick]
    · exact hp.waits.trans (by simp [Phase.Waits, Phase.kick])
  · rw [World.kickOnce, if_pos (hp.kicked.mpr hfresh), Phase.kick, if_neg hfresh]
    exact hp

theorem kickOnce_section (t t' : TransportId) (w : World) : Section t w (w.kickOnce t') := by
  by_cases hne : t' = t
  · subst hne
    cases hk : (w.transport t').kicked with
    | true =>
      rw [World.kickOnce, if_pos hk]
      exact .refl t' w
    | false =>
      have hphase := fun p (hp : InPhase t' w p) => hp.kickOnce
      rw [kickOnce_of_unkicked hk] at hphase ⊢
      refine ⟨rfl, by simp [World.record], by simp [World.record], by simp [World.record],
        prefix_append _ _, .inr ⟨by simp [World.record], ?_⟩, fun _ => ?_, fun p hp => ?_⟩
      · simp [World.record, World.setTransport]
      · simp [World.record]
      · have hcount : ¬Releases t' w ((w.setTransport t'
            { w.transport t' with kicked := true }).record (.kick t')) :=
          not_releases (by simp [World.record])
        refine ⟨p.kick, hphase p hp, ?_⟩
        rw [or_iff_left fun h => hcount h.1]
        cases p <;> simp [Phase.kick, Phase.Bad]
  · unfold World.kickOnce
    split
    next => exact .refl t w
    next => exact (setTransport_other _ hne).trans (record_other hne)

theorem kickOnce_kicked (t : TransportId) (w : World) :
    ((w.kickOnce t).transport t).kicked = true ∧
      ((w.kickOnce t).transport t).refCount = (w.transport t).refCount := by
  unfold World.kickOnce
  split
  next hk => exact ⟨hk, rfl⟩
  next => simp [World.record]

theorem decrement_section (hlast : (w.transport t).refCount ≠ 1) : Section t w
    (w.setTransport t { w.transport t with refCount := (w.transport t).refCount - 1 }) := by
  refine ⟨rfl, by simp, by simp, by simp, prefix_refl _, .inl ⟨by simp, fun _ => rfl⟩,
    .inl, fun p hp => ⟨p, ⟨?_, hp.log, hp.waits, hp.winner, fun hended => ?_⟩, ?_⟩⟩
  · rw [transport_setTransport]
    exact hp.kicked
  · have hle := hp.ended hended
    rw [transport_setTransport]
    dsimp only
    omega
  · refine (or_iff_left fun h => ?_).symm
    have hle := h.1.2
    have hlt := h.1.1
    rw [transport_setTransport] at hle
    dsimp only at hle
    omega

theorem InPhase.close {p : Phase} (hp : InPhase t w p) (hopen : ¬p.Ended)
    (hk : (w.transport t).kicked = true) (hcount : (w.transport t).refCount = 0) :
    InPhase t ((w.record (.close t)).record (.post t)) p.close := by
  have hkicked := hp.kicked.mp hk
  refine ⟨iff_of_true hk ?_, ?_, hp.waits.trans ?_, hp.winner, fun _ => hcount.le⟩
  · cases p <;> simp [Phase.close]
  · simp only [World.record, filter_append, hp.log]
    cases p <;> simp_all [Phase.events, Phase.Ended, Phase.close, About, Event.transport]
  · cases p <;> simp_all [Phase.Waits, Phase.Ended, Phase.close]

/-- The last reference is dropped: the transport is kicked if it has not been, and closed. -/
theorem release_section (hlast : (w.transport t).refCount = 1) : Section t w
    ((((w.setTransport t { w.transport t with refCount := 0 }).kickOnce t).record
      (.close t)).record (.post t)) := by
  set w₁ := w.setTransport t { w.transport t with refCount := 0 }
  have hx : w₁.transport t = { w.transport t with refCount := 0 } := transport_setTransport w t _
  have hkick := kickOnce_section t t w₁
  obtain ⟨hkicked, hcount⟩ := kickOnce_kicked t w₁
  replace hcount : ((w₁.kickOnce t).transport t).refCount = 0 := by rw [hcount, hx]
  refine ⟨hkick.thread, hkick.type.trans (by rw [hx]), hkick.port.trans (by rw [hx]),
    hcount.trans_le (by omega), hkick.log.trans ((prefix_append _ _).trans
      (prefix_append _ _)), ?_, fun _ => .inr hkicked, fun p hp => ?_⟩
  · have huse := hkick.use
    rw [hx] at huse
    simpa [World.record, w₁, World.setTransport] using huse
  · have hopen : ¬p.Ended := fun hended => absurd (hp.ended hended) (by omega)
    have hp₁ : InPhase t w₁ p := by
      refine ⟨?_, hp.log, hp.waits, hp.winner, fun hended => absurd hended hopen⟩
      rw [hx]
      exact hp.kicked
    have hopen' : ¬p.kick.Ended := by cases p <;> simp_all [Phase.Ended, Phase.kick]
    refine ⟨p.kick.close, hp₁.kickOnce.close hopen' hkicked hcount, ?_⟩
    have hreleases : Releases t w (((w₁.kickOnce t).record (.close t)).record (.post t)) :=
      ⟨by omega, hcount.le⟩
    rw [and_iff_right hreleases]
    cases p <;> simp_all [Phase.Ended, Phase.kick, Phase.close, Phase.Bad, Phase.Waits]

theorem transportUnrefLocked_section (t : TransportId)
    (hw : w.transportUnrefLocked t' = some w') : Section t w w' := by
  unfold World.transportUnrefLocked at hw
  dsimp only at hw
  split at hw
  next => cases hw
  next =>
    by_cases hne : t' = t
    · subst hne
      split at hw
      next hlast =>
        cases hw
        rw [hlast]
        exact release_section (by omega)
      next hlast =>
        cases hw
        exact decrement_section (by omega)
    · have hset := setTransport_other (w := w)
        { w.transport t' with refCount := (w.transport t').refCount - 1 } hne
      split at hw <;> cases hw
      next =>
        exact (hset.trans (kickOnce_section t t' _)).trans
          ((record_other (e := .close t') hne).trans (record_other (e := .post t') hne))
      next => exact hset

theorem unregisterTcp_section (t : TransportId) (hw : w.unregisterTcp t' = some w') :
    Section t w w' := by
  unfold World.unregisterTcp at hw
  split at hw
  next =>
    refine Section.trans ?_ (transportUnrefLocked_section t hw)
    by_cases hne : t' = t
    · subst hne
      -- what is taken off the list is kicked in the same section
      have hkick := kickOnce_section t' t' (w.unlink t')
      refine ⟨hkick.thread, hkick.type, hkick.port, hkick.count, hkick.log, ?_, hkick.posted,
        fun p hp => hkick.phase p ⟨hp.kicked, hp.log, hp.waits, hp.winner, hp.ended⟩⟩
      cases hk : (w.transport t').kicked with
      | true => exact .inl ⟨(kickOnce_kicked t' _).1, by simp⟩
      | false =>
        refine .inr ⟨(kickOnce_kicked t' _).1, ?_⟩
        rw [kickOnce_of_unkicked (w := w.unlink t') hk]
        simp [World.record, World.setTransport, World.unlink]
    · exact (unlink_other hne).trans (kickOnce_section t t' _)
  next =>
    cases hw
    exact .refl t w

theorem unregisterAllLoop_section (t : TransportId) {fuel : ℕ} {x : Node}
    (hw : World.unregisterAllLoop fuel x w = some w') : Section t w w' := by
  induction fuel generalizing x w with
  | zero => cases hw
  | succ fuel ih =>
    cases x with
    | transportList =>
      cases hw
      exact .refl t _
    | node t' =>
      obtain ⟨w₁, hw₁, hrest⟩ := Option.bind_eq_some_iff.mp hw
      exact (unregisterTcp_section t hw₁).trans (ih hrest)

theorem closeUsbLoop_section (t : TransportId) {fuel : ℕ} {x : Node}
    (hw : World.closeUsbLoop fuel x w = some w') : Section t w w' := by
  induction fuel generalizing x w with
  | zero => cases hw
  | succ fuel ih =>
    cases x with
    | transportList =>
      cases hw
      exact .refl t _
    | node t' => exact (kickOnce_section t t' w).trans (ih hw)

end Sections

section Steps

variable {t : TransportId} {w w' : World} {i : ℕ} {pc : Pc} {p : Phase}

/-- The thread has taken the transport off its list and is about to kick it. -/
def Unlinking (w : World) (t : TransportId) (i : ℕ) : Prop :=
  w.thread i = .check t true ∨ w.thread i = .lock t true

/-- A step seen from one transport: a locked section, a thread that goes on after one, a thread that
has taken the transport off its list, and the two halves of the kick in `kick_transport`. -/
inductive Move (t : TransportId) (w : World) : World → Prop
  | locked {v : World} (h : Section t w v) : Move t w v
  | thread {v : World} (i : ℕ) (pc : Pc) (h : Section t w v) (hat : ¬w.AtKick t i)
      (hpc : ∀ u, pc ≠ .callKick t u)
      (hun : Unlinking w t i → (w.transport t).kicked = true ∨ pc = .lock t true) :
      Move t w (v.setThread i pc)
  | unlinked (i : ℕ) (hi : w.thread i = .unlink t) :
      Move t w ((w.unlink t).setThread i (.check t true))
  | won (i : ℕ) (u : Bool) (hk : (w.transport t).kicked = false) :
      Move t w
        ((w.setTransport t { w.transport t with kicked := true }).setThread i (.callKick t u))
  | called (i : ℕ) (u : Bool) (hat : w.AtKick t i) :
      Move t w ((w.record (.kick t)).setThread i (World.returned t u))

theorem returned_ne (t t' : TransportId) (u u' : Bool) : World.returned t u ≠ .callKick t' u' := by
  cases u <;> simp [World.returned]

theorem start_move (t : TransportId) {c : Call} (hi : w.thread i = .idle)
    (hw : w.start i c = some w') : Move t w w' := by
  have hthread : ∀ pc, (∀ u, pc ≠ .callKick t u) → Move t w (w.setThread i pc) := fun pc hpc =>
    .thread i pc (.refl t w) (by simp [World.AtKick, hi]) hpc (by simp [Unlinking, hi])
  cases c with
  | kickTransport t' | transportUnref t' =>
    cases t' with
    | none => exact .locked (Option.some.inj hw ▸ .refl t w)
    | some t' => exact Option.some.inj hw ▸ hthread _ (by simp)
  | unregisterTransport t' => exact Option.some.inj hw ▸ hthread _ (by simp)
  | unregisterAllTcpTransports fuel => exact .locked (unregisterAllLoop_section t hw)
  | closeUsbDevices fuel => exact .locked (closeUsbLoop_section t hw)

theorem resume_move (t : TransportId) (hw : w.resume i = some w') : Move t w w' := by
  unfold World.resume at hw
  cases hpc : w.thread i with
  | idle =>
    rw [hpc] at hw
    cases hw
  | check t' u =>
    rw [hpc] at hw
    dsimp only at hw
    split at hw
    next hk =>
      cases hw
      refine .thread i _ (.refl t w) (by simp [World.AtKick, hpc]) (returned_ne t' t u)
        fun hun => ?_
      rcases hun with heq | heq <;> cases hpc.symm.trans heq
      exact .inl hk
    next =>
      cases hw
      refine .thread i _ (.refl t w) (by simp [World.AtKick, hpc]) (by simp) fun hun => ?_
      rcases hun with heq | heq <;> cases hpc.symm.trans heq
      exact .inr rfl
  | lock t' u =>
    rw [hpc] at hw
    dsimp only at hw
    split at hw
    next hk =>
      cases hw
      refine .thread i _ (.refl t w) (by simp [World.AtKick, hpc]) (returned_ne t' t u)
        fun hun => ?_
      rcases hun with heq | heq <;> cases hpc.symm.trans heq
      exact .inl hk
    next hk =>
      cases hw
      by_cases hne : t' = t
      · subst hne
        exact .won i u (by simpa using hk)
      · refine .thread i _ (setTransport_other _ hne) (by simp [World.AtKick, hpc]) (by simp [hne])
          fun hun => ?_
        rcases hun with heq | heq <;> cases hpc.symm.trans heq
        exact absurd rfl hne
  | callKick t' u =>
    rw [hpc] at hw
    cases hw
    by_cases hne : t' = t
    · subst hne
      exact .called i u ⟨u, hpc⟩
    · exact .thread i _ (record_other hne) (by simp [World.AtKick, hpc, hne]) (returned_ne t' t u)
        (by simp [Unlinking, hpc])
  | unref t' =>
    rw [hpc] at hw
    obtain ⟨w₁, hw₁, rfl⟩ := Option.map_eq_some_iff.mp hw
    exact .thread i _ (transportUnrefLocked_section t hw₁) (by simp [World.AtKick, hpc]) (by simp)
      (by simp [Unlinking, hpc])
  | unlink t' =>
    rw [hpc] at hw
    cases hw
    by_cases hne : t' = t
    · subst hne
      exact .unlinked i hpc
    · exact .thread i _ (unlink_other hne) (by simp [World.AtKick, hpc]) (by simp)
        (by simp [Unlinking, hpc])

theorem step_move (t : TransportId) {a : Action} (hs : w.step a = some w') : Move t w w' := by
  cases a with
  | call i c =>
    simp only [World.step] at hs
    split at hs
    next hi => exact start_move t hi hs
    next => cases hs
  | run i => exact resume_move t hs

theorem thread_setThread (w : World) (i j : ℕ) (pc : Pc) :
    (w.setThread i pc).thread j = if j = i then pc else w.thread j := by
  simp [World.setThread, update_apply]

theorem InPhase.setThread (hp : InPhase t w p) (hat : ¬w.AtKick t i)
    (hpc : ∀ u, pc ≠ .callKick t u) : InPhase t (w.setThread i pc) p := by
  have hsame : ∀ j, (w.setThread i pc).AtKick t j ↔ w.AtKick t j := by
    intro j
    simp only [World.AtKick, thread_setThread]
    split
    next hj =>
      subst hj
      exact iff_of_false (by simpa using hpc) hat
    next => rfl
  refine ⟨hp.kicked, hp.log, ?_, fun j k => ?_, hp.ended⟩
  · simp only [hsame]
    exact hp.waits
  · rw [hsame, hsame]
    exact hp.winner j k

theorem InPhase.won (hp : InPhase t w .fresh) (i : ℕ) (u : Bool) :
    InPhase t ((w.setTransport t { w.transport t with kicked := true }).setThread i
      (.callKick t u)) .won := by
  have hno : ∀ j, ¬w.AtKick t j := by simpa [Phase.Waits] using hp.waits
  set w₁ := (w.setTransport t { w.transport t with kicked := true }).setThread i (.callKick t u)
  have honly : ∀ j, w₁.AtKick t j ↔ j = i := by
    intro j
    rw [World.AtKick, thread_setThread]
    split
    next hj => simp [hj]
    next hj => exact iff_of_false (hno j) hj
  refine ⟨?_, hp.log, ?_, fun j k => ?_, by simp [Phase.Ended]⟩
  · rw [show w₁.transport t = _ from transport_setTransport w t _]
    simp
  · simp [honly, Phase.Waits]
  · rw [honly, honly]
    exact fun hj hk => hj.trans hk.symm

theorem InPhase.called (hp : InPhase t w p) (hat : w.AtKick t i) (u : Bool) :
    InPhase t ((w.record (.kick t)).setThread i (World.returned t u)) p.call := by
  have hno : ∀ j, ¬((w.record (.kick t)).setThread i (World.returned t u)).AtKick t j := by
    intro j
    rw [World.AtKick, thread_setThread]
    split
    next => simp [returned_ne]
    next hj => exact fun hj' => hj (hp.winner j i hj' hat)
  have hwaits : p = .won ∨ p = .rushed := hp.waits.mp ⟨i, hat⟩
  refine ⟨hp.kicked.trans ?_, ?_, ?_, fun j _ hj => absurd hj (hno j), fun hended => hp.ended ?_⟩
  · rcases hwaits with rfl | rfl <;> simp [Phase.call]
  · simp only [World.setThread, World.record, filter_append, hp.log]
    rcases hwaits with rfl | rfl <;> simp [Phase.call, Phase.events, About, Event.transport]
  · refine iff_of_false (fun ⟨j, hj⟩ => hno j hj) ?_
    rcases hwaits with rfl | rfl <;> simp [Phase.call, Phase.Waits]
  · rcases hwaits with rfl | rfl <;> simp_all [Phase.call, Phase.Ended]

/-- A transport is closed too early exactly by dropping its last reference while a thread is about
to call `t->kick`, and is kicked too late only after that. -/
theorem Move.phase (hm : Move t w w') (hp : InPhase t w p) : ∃ p', InPhase t w' p' ∧
    (p'.Bad ↔ p.Bad ∨ Releases t w w' ∧ p.Waits) ∧ (p' = .late → p.Bad) := by
  have hlate : ∀ {v p'}, Section t w v → InPhase t v p' →
      (p'.Bad ↔ p.Bad ∨ Releases t w v ∧ p.Waits) → p' = .late → p.Bad := by
    rintro v p' h hp' hbad rfl
    refine (hbad.mp (.inr rfl)).resolve_right fun hr => ?_
    simpa [Phase.Waits] using (h.waits hp hp').mpr hr.2
  cases hm with
  | locked h =>
    obtain ⟨p', hp', hbad⟩ := h.phase p hp
    exact ⟨p', hp', hbad, hlate h hp' hbad⟩
  | thread i pc h hat hpc =>
    obtain ⟨p', hp', hbad⟩ := h.phase p hp
    refine ⟨p', hp'.setThread ?_ hpc, hbad, hlate h hp' hbad⟩
    rw [World.AtKick, h.thread]
    exact hat
  | unlinked i hi =>
    have hp' : InPhase t (w.unlink t) p := ⟨hp.kicked, hp.log, hp.waits, hp.winner, hp.ended⟩
    refine ⟨p, hp'.setThread (by simp [World.AtKick, World.unlink, hi]) (by simp),
      (or_iff_left fun h => not_releases rfl h.1).symm, fun h => .inr h⟩
  | won i u hk =>
    obtain rfl : p = .fresh := by
      by_contra hne
      cases hk.symm.trans (hp.kicked.mpr hne)
    exact ⟨.won, hp.won i u, by simp [Phase.Bad, Phase.Waits], by simp⟩
  | called i u hat =>
    have hwaits : p = .won ∨ p = .rushed := hp.waits.mp ⟨i, hat⟩
    refine ⟨p.call, hp.called hat u, ?_, fun h => .inl ?_⟩
    · rw [or_iff_left fun h => not_releases rfl h.1]
      rcases hwaits with rfl | rfl <;> simp [Phase.call, Phase.Bad]
    · rcases hwaits with rfl | rfl <;> simp_all [Phase.call]

end Steps

section Runs

variable {t : TransportId} {w₀ w w' : World} {actions : List Action} {p : Phase}

/-- Nobody has kicked the transport, or is about to. -/
def Untouched (t : TransportId) (w : World) : Prop :=
  (w.transport t).kicked = false ∧ (∀ e ∈ w.log, e.transport ≠ t) ∧ ∀ i, ¬w.AtKick t i

theorem Untouched.fresh (h : Untouched t w) : InPhase t w .fresh := by
  obtain ⟨hk, hlog, hat⟩ := h
  refine ⟨by simp [hk], ?_, ?_, fun i _ hi => absurd hi (hat i), by simp [Phase.Ended]⟩
  · simpa [Phase.events, About] using hlog
  · simpa [Phase.Waits] using hat

/-- Whenever the last reference of the transport is dropped, no thread is on its way from setting
`kicked` in `kick_transport` to calling `t->kick`. -/
def ReleasedKicked (t : TransportId) (w₀ : World) (actions : List Action) : Prop :=
  ∀ pre a post w w', actions = pre ++ a :: post → exec World.step w₀ pre = some w →
    w.step a = some w' → Releases t w w' → ∀ i, ¬w.AtKick t i

theorem releasedKicked_snoc {a : Action} (hrun : exec World.step w₀ actions = some w)
    (hs : w.step a = some w') : ReleasedKicked t w₀ (actions ++ [a]) ↔
      ReleasedKicked t w₀ actions ∧ (Releases t w w' → ∀ i, ¬w.AtKick t i) := by
  constructor
  · intro h
    refine ⟨fun pre b post v v' heq hv => ?_, h actions a [] w w' rfl hrun hs⟩
    exact h pre b (post ++ [a]) v v' (by simp [heq]) hv
  · rintro ⟨h, hlast⟩ pre b post v v' heq hv hv'
    rcases eq_nil_or_concat post with rfl | ⟨post', b', rfl⟩
    · obtain ⟨rfl, hb⟩ := append_inj' heq rfl
      obtain rfl : a = b := singleton_inj.mp hb
      obtain rfl : w = v := Option.some.inj (hrun.symm.trans hv)
      obtain rfl : w' = v' := Option.some.inj (hs.symm.trans hv')
      exact hlast
    · rw [concat_eq_append, ← cons_append, ← append_assoc] at heq
      exact h pre b post' v v' (append_inj' heq rfl).1 hv hv'

theorem run_phase (h₀ : Untouched t w₀) (hrun : exec World.step w₀ actions = some w) :
    ∃ p, InPhase t w p ∧ (¬p.Bad ↔ ReleasedKicked t w₀ actions) := by
  induction actions using reverseRecOn generalizing w with
  | nil =>
    obtain rfl : w₀ = w := Option.some.inj hrun
    refine ⟨.fresh, h₀.fresh, iff_of_true (by simp [Phase.Bad]) ?_⟩
    intro pre a post w w' heq
    simp at heq
  | append_singleton actions a ih =>
    rw [exec_snoc] at hrun
    obtain ⟨w₁, hw₁, hs⟩ := Option.bind_eq_some_iff.mp hrun
    obtain ⟨p, hp, hbad⟩ := ih hw₁
    obtain ⟨p', hp', hbad', -⟩ := (step_move t hs).phase hp
    refine ⟨p', hp', ?_⟩
    rw [hbad', releasedKicked_snoc hw₁ hs, ← hbad, ← hp.waits, not_or, not_and, not_exists]

/-- Kick, close and removal are in order, and stay so whichever thread goes on. -/
def StaysOrderly (t : TransportId) (w : World) : Prop :=
  Orderly t w.log ∧ ∀ i w', w.step (.run i) = some w' → Orderly t w'.log

theorem InPhase.staysOrderly_iff (hp : InPhase t w p) : StaysOrderly t w ↔ ¬p.Bad := by
  constructor
  · rintro ⟨ho, hnext⟩ (rfl | rfl)
    · obtain ⟨i, u, hu⟩ := hp.waits.mpr (.inr rfl)
      have hlate := hnext i _ (by rw [World.step, World.resume, hu])
      exact (hp.called ⟨u, hu⟩ u).orderly_iff.mp hlate rfl
    · exact hp.orderly_iff.mp ho rfl
  · intro hbad
    refine ⟨hp.orderly_iff.mpr fun h => hbad (.inr h), fun i w' hs => ?_⟩
    obtain ⟨p', hp', -, hlate⟩ := (step_move t hs).phase hp
    exact hp'.orderly_iff.mpr fun h => hbad (hlate h)

/-- Kick, close and removal happen at most once in every run, and the kick comes before the close
exactly if no thread is about to call `t->kick` when the last reference is dropped. -/
theorem teardown_orderly_iff (h₀ : Untouched t w₀) (hrun : exec World.step w₀ actions = some w) :
    StaysOrderly t w ↔ ReleasedKicked t w₀ actions := by
  obtain ⟨p, hp, hbad⟩ := run_phase h₀ hrun
  rw [hp.staysOrderly_iff, hbad]

def oneDevice : World where
  links := ⟨fun | .transportList => .node 0 | .node _ => .transportList,
    fun | .transportList => .node 0 | .node _ => .transportList⟩
  linked _ := true
  transport _ := ⟨false, 2, .tcp, 0⟩
  thread _ := .idle
  log := []

theorem untouched_oneDevice (t : TransportId) : Untouched t oneDevice :=
  ⟨rfl, by simp [oneDevice], by simp [World.AtKick, oneDevice]⟩

def lostDevice : List Action :=
  [.call 1 (.kickTransport (some 0)), .run 1, .run 1, .run 1, .call 1 (.transportUnref (some 0)),
    .run 1, .call 2 (.kickTransport (some 0)), .run 2, .call 2 (.transportUnref (some 0)), .run 2]

theorem teardown_orderly_lost : ∃ w, exec World.step oneDevice lostDevice = some w ∧
    w.log = [.kick 0, .close 0, .post 0] ∧ ReleasedKicked 0 oneDevice lostDevice := by
  obtain ⟨w, hw, hlog, hidle⟩ : ∃ w, exec World.step oneDevice lostDevice = some w ∧
      w.log = [.kick 0, .close 0, .post 0] ∧ ∀ i, w.thread i = .idle := by
    refine ⟨_, rfl, by decide +kernel, fun i => ?_⟩
    match i with
    | 0 | 1 | 2 => rfl
    | n + 3 => rfl
  have horderly : Orderly 0 w.log := by
    rw [hlog]
    constructor <;> simp [InOrder]
  refine ⟨w, hw, hlog, (teardown_orderly_iff (untouched_oneDevice 0) hw).mp ⟨horderly, ?_⟩⟩
  intro i w' hs
  rw [World.step, World.resume, hidle i] at hs
  cases hs

/-- The output thread has set `kicked` when the user disconnects the device, which drops one
reference, and the input thread drops the other one: the device is closed before it is kicked. -/
def lateKick : List Action :=
  [.call 1 (.kickTransport (some 0)), .run 1, .run 1, .call 0 (.unregisterTransport 0), .run 0,
    .run 0, .run 0, .call 2 (.kickTransport (some 0)), .run 2, .call 2 (.transportUnref (some 0)),
    .run 2, .run 1]

theorem teardown_kicks_closed : ∃ w, exec World.step oneDevice lateKick = some w ∧
    w.log = [.close 0, .post 0, .kick 0] ∧ ¬Orderly 0 w.log := by
  have hexec : (exec World.step oneDevice lateKick).map (fun w => w.log) =
      some [.close 0, .post 0, .kick 0] := by decide +kernel
  obtain ⟨w, hw, hlog⟩ := Option.map_eq_some_iff.mp hexec
  refine ⟨w, hw, hlog, fun h => ?_⟩
  rw [hlog] at h
  exact (pairwise_cons.mp h.order).1 (.kick 0) (by simp) rfl rfl

end Runs

section Lifecycle

variable {t : TransportId} {w : Lifecycle.World} {v v' : World} {x : Lifecycle.ATransport}

/-- The two models have the same transport and agree on its removal message. -/
structure Agrees (t : TransportId) (w : Lifecycle.World) (v : World) : Prop where
  transport : (w.transport t).map (fun x => ⟨x.kicked, x.refCount, w.type t, x.adbPort⟩) =
    some (v.transport t)
  posted : w.posted t = true ↔ .post t ∈ v.log

theorem Agrees.of_transport (h : Agrees t w v) (hx : w.transport t = some x) :
    v.transport t = ⟨x.kicked, x.refCount, w.type t, x.adbPort⟩ := by
  simpa [hx] using h.transport.symm

theorem Agrees.setTransport {y : Lifecycle.ATransport} (h : Agrees t w v) :
    Agrees t (w.setTransport t y)
      (v.setTransport t ⟨y.kicked, y.refCount, w.type t, y.adbPort⟩) := by
  refine ⟨?_, h.posted⟩
  simp [Lifecycle.World.setTransport, World.setTransport]

theorem Agrees.callKick (h : Agrees t w v) : Agrees t (w.callKick t) (v.record (.kick t)) := by
  have hposted : .post t ∈ v.log ++ [.kick t] ↔ .post t ∈ v.log := by simp
  obtain ⟨x, hx, htransport⟩ := Option.map_eq_some_iff.mp h.transport
  rw [Lifecycle.World.callKick, hx]
  cases htype : w.type t with
  | usb => exact ⟨h.transport, h.posted.trans hposted.symm⟩
  | tcp =>
    dsimp only
    cases x.sfd with
    | none =>
      refine ⟨?_, h.posted.trans hposted.symm⟩
      simp [Lifecycle.World.setTransport, World.record, ← htransport]
    | some n =>
      refine ⟨?_, h.posted.trans hposted.symm⟩
      simp [Lifecycle.World.setTransport, Lifecycle.World.adbClose, World.record, ← htransport]

theorem Agrees.kickOnce (h : Agrees t w v) (hx : w.transport t = some x) :
    Agrees t (w.kickOnce t x) (v.kickOnce t) := by
  have hv := h.of_transport hx
  rw [Lifecycle.World.kickOnce, World.kickOnce, hv]
  split
  · exact h
  · exact h.setTransport.callKick

theorem Agrees.ended (h : Agrees t w v) : Agrees t ((w.callClose t).removeTransport t)
    ((v.record (.close t)).record (.post t)) := by
  refine ⟨?_, by simp [Lifecycle.World.removeTransport, World.record]⟩
  rw [Lifecycle.World.callClose]
  split <;> exact h.transport

theorem Agrees.transportUnrefLocked (h : Agrees t w v)
    (hv : v.transportUnrefLocked t = some v') : Agrees t (w.transportUnrefLocked t) v' := by
  obtain ⟨x, hx, -⟩ := Option.map_eq_some_iff.mp h.transport
  rw [World.transportUnrefLocked, h.of_transport hx] at hv
  rw [Lifecycle.World.transportUnrefLocked, hx]
  dsimp only at hv ⊢
  have hset := h.setTransport (y := { x with refCount := x.refCount - 1 })
  split at hv
  · cases hv
  split at hv
  next hlast =>
    rw [if_pos hlast, ← Option.some.inj hv]
    exact (hset.kickOnce (update_self ..)).ended
  next hlast =>
    rw [if_neg hlast, ← Option.some.inj hv]
    exact hset

/-- What `unregister_all_tcp_transports` does to a transport is the same in both models. -/
theorem Agrees.unregisterTcp (h : Agrees t w v) (hx : w.transport t = some x)
    (hv : v.unregisterTcp t = some v') : Agrees t (w.unregisterTcp t x) v' := by
  rw [World.unregisterTcp, h.of_transport hx] at hv
  rw [Lifecycle.World.unregisterTcp]
  split at hv
  next htcp =>
    rw [if_pos htcp]
    have hunlink : Agrees t { w with links := w.links.unlink (.node t)
                                     status := update w.status t .unregistered }
        (v.unlink t) := ⟨h.transport, h.posted⟩
    exact (hunlink.kickOnce hx).transportUnrefLocked hv
  next htcp =>
    rw [if_neg htcp, ← Option.some.inj hv]
    exact h

end Lifecycle

end PaxAdb.Teardown
