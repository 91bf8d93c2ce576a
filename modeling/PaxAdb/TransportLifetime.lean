import PaxAdb.LifecycleBook

/-!
# Lifetime of a transport

`ref_count` starts at two, one reference for each of the two threads of a transport, and the removal
message is posted when it reaches zero. An administrative disconnect drops a reference as well,
although it never took one: afterwards the message is posted while one thread still runs. Along
every run without such a drop the counter is the number of running threads.
-/

namespace PaxAdb.Lifecycle

open Function (update_self update_of_ne)
open Ring Runs World View

def ThreadPc.alive : ThreadPc → Bool
  | .absent | .finished => false
  | .running | .kick | .callKick | .unref => true

def View.running (v : View) (t : TransportId) : ℤ :=
  (if (v.thread t .output).alive then 1 else 0) + (if (v.thread t .input).alive then 1 else 0)

/-- The removal message waits for both threads, and each running thread has its reference. -/
def View.LifetimeOk (v : View) (t : TransportId) : Prop :=
  (v.posted t = true → ∀ m, v.thread t m = .finished) ∧
    ∀ n, v.refCount t = some n → v.running t ≤ n

/-- The condition on a step: it is not an administrative disconnect dropping a reference of `t`. -/
def KeepsReferences (t : TransportId) (w : World) (a : Action) : Prop :=
  ¬ (a = .mainUnref ∧ w.main = .unref t) ∧
  ¬ (a = .disconnectAll ∧ w.type t = .tcp ∧ w.view.adbPort t = some 0 ∧ w.status t = .listed)

def View.Counted (v : View) (t : TransportId) : Prop :=
  (∀ m, v.thread t m = .absent) ∧ v.posted t = false ∧ (∀ n, v.refCount t = some n → n = 0) ∨
  (∀ m, v.thread t m ≠ .absent) ∧ (v.posted t = true ↔ v.running t = 0) ∧
    ∀ n, v.refCount t = some n → n = v.running t

structure Accounted (t : TransportId) (v : View) : Prop where
  book : Book v
  disconnecting : v.status t = .unregistered → v.main ∈ [.kick t, .callKick t, .unref t]
  counted : v.Counted t

variable {u t : TransportId}

section Threads

variable {v : View} {t : TransportId}

theorem alive_iff {pc : ThreadPc} : pc.alive = true ↔ pc ≠ .absent ∧ pc ≠ .finished := by
  cases pc <;> simp [ThreadPc.alive]

theorem running_setThread_alive {m : ThreadName} {pc : ThreadPc} (hm : (v.thread t m).alive)
    (hpc : pc.alive) (u : TransportId) : (v.setThread t m pc).running u = v.running u := by
  by_cases hu : u = t
  · subst u
    cases m <;> simp [View.running, View.setThread, hm, hpc]
  · simp [View.running, View.setThread, update_of_ne hu]

theorem running_setThread_finished {m : ThreadName} (hm : (v.thread t m).alive) :
    (v.setThread t m .finished).running t = v.running t - 1 := by
  have hf : ThreadPc.finished.alive = false := rfl
  cases m <;> simp [View.running, View.setThread, hm, hf]

theorem one_le_running {m : ThreadName} (hm : (v.thread t m).alive) : 1 ≤ v.running t := by
  unfold running
  cases m <;> simp only [hm, if_true] <;> split <;> omega

theorem thread_setThread_ne (hu : t ≠ u) (m : ThreadName) (pc : ThreadPc) :
    (v.setThread u m pc).thread t = v.thread t :=
  update_of_ne hu _ _

theorem finished_of_running_eq_zero (hstart : ∀ m, v.thread t m ≠ .absent)
    (h : v.running t = 0) (m : ThreadName) : v.thread t m = .finished := by
  by_contra hne
  have := one_le_running (alive_iff.mpr ⟨hstart m, hne⟩)
  omega

theorem Accounted.lifetimeOk (h : Accounted t v) : v.LifetimeOk t := by
  rcases h.counted with ⟨habsent, hposted, hcount⟩ | ⟨hstart, hposted, hcount⟩
  · refine ⟨fun hp => absurd hp (by simp [hposted]), fun n hn => ?_⟩
    rw [hcount n hn]
    simp [running, habsent, ThreadPc.alive]
  · exact ⟨fun hp => finished_of_running_eq_zero hstart (hposted.mp hp),
      fun n hn => (hcount n hn).ge⟩

theorem View.Counted.frame {v' : View} (h : v.Counted t) (hthread : v'.thread t = v.thread t)
    (hposted : v'.posted t = v.posted t) (hcount : v'.refCount t = v.refCount t) :
    v'.Counted t := by
  simpa only [View.Counted, running, hthread, hposted, hcount] using h

theorem counted_unref_ne {n : ℤ} (h : v.Counted t) (hu : t ≠ u) : (v.unref u n).Counted t := by
  refine h.frame rfl ?_ (update_of_ne hu _ _)
  simp only [unref]
  split
  · exact update_of_ne hu _ _
  · rfl

theorem counted_threadUnref {m : ThreadName} {n : ℤ} (h : v.Counted t)
    (hm : v.thread t m = .unref) (hn : v.refCount t = some n) :
    ((v.unref t n).setThread t m .finished).Counted t := by
  obtain ⟨hstart, hposted, hcount⟩ :=
    h.resolve_left (fun hl => absurd (hl.1 m) (by simp [hm]))
  have halive : ((v.unref t n).thread t m).alive := by
    change (v.thread t m).alive
    rw [hm]
    rfl
  have hrun : ((v.unref t n).setThread t m .finished).running t = v.running t - 1 :=
    running_setThread_finished halive
  have hpos : 1 ≤ v.running t := one_le_running halive
  have hnr : n = v.running t := hcount n hn
  refine Or.inr ⟨fun m' => ?_, ?_, ?_⟩
  · by_cases hm' : m' = m
    · subst m'
      simp [View.setThread]
    · simpa [View.setThread, View.unref, update_of_ne hm'] using hstart m'
  · rw [hrun]
    change (v.unref t n).posted t = true ↔ _
    by_cases h1 : n = 1
    · simp only [View.unref, h1, if_true, update_self]
      exact ⟨fun _ => by omega, fun _ => trivial⟩
    · simp only [View.unref, h1, if_false, hposted]
      omega
  · intro k hk
    have hk' : some (n - 1) = some k := by simpa [View.setThread, View.unref] using hk
    rw [hrun]
    cases hk'
    omega

theorem counted_threadStep {m : ThreadName} {pc : ThreadPc} (h : v.Counted t)
    (hm : (v.thread u m).alive) (hpc : pc.alive) : (v.setThread u m pc).Counted t := by
  by_cases hu : t = u
  · subst u
    obtain ⟨hstart, hposted, hcount⟩ :=
      h.resolve_left (fun hl => absurd (hl.1 m) (alive_iff.mp hm).1)
    have hrun := running_setThread_alive hm hpc t
    refine Or.inr ⟨fun m' => ?_, by rw [hrun]; exact hposted, by rw [hrun]; exact hcount⟩
    by_cases hm' : m' = m
    · subst m'
      simpa [View.setThread] using (alive_iff.mp hpc).1
    · simpa [View.setThread, update_of_ne hm'] using hstart m'
  · exact h.frame (thread_setThread_ne hu m pc) rfl rfl

theorem counted_start {v' : View} (h : v.Counted t) (habsent : ∀ m, v.thread t m = .absent)
    (hthread : v'.thread t = fun _ => .running) (hposted : v'.posted = v.posted)
    (hcount : v'.refCount t = some 2) : v'.Counted t := by
  have hp : v.posted t = false := by
    rcases h with h | h
    · exact h.2.1
    · exact absurd (habsent .output) (h.1 .output)
  have hrun : v'.running t = 2 := by simp [running, hthread, ThreadPc.alive]
  refine Or.inr ⟨fun m => by simp [hthread], ?_, fun n hn => ?_⟩
  · simp [hposted, hp, hrun]
  · rw [hcount] at hn
    cases hn
    rw [hrun]

end Threads

theorem counted_move {v v' : View} {k : Kind} (hb : Book v) (h : v.Counted t)
    (hk : k ≠ .release t) (hmove : Move View.Master v k v') : v'.Counted t := by
  cases hmove with
  | register type port =>
    by_cases ht : t = v.nextTransport
    · have hborn : v.status t = .unborn := hb.fresh t ht.ge
      have habsent : ∀ m, v.thread t m = .absent := by
        intro m
        by_contra hne
        exact (hb.thread t m hne).1 hborn
      obtain ⟨_, hposted, _⟩ := h.resolve_right (fun hr => hr.1 .output (habsent .output))
      refine Or.inl ⟨habsent, hposted, fun n hn => ?_⟩
      simpa [register, ht, eq_comm] using hn
    · exact h.frame rfl rfl (update_of_ne ht _ _)
  | @start u rest hm hr =>
    by_cases ht : t = u
    · subst u
      have hpending : v.status t = .pending := hb.pending t (by simp [awaiting, hr])
      have habsent : ∀ m, v.thread t m = .absent := by
        intro m
        by_contra hne
        exact absurd ((hb.thread t m hne).2 hpending) (by simp [hm])
      exact counted_start h habsent (by simp) rfl (by simp)
    · exact h.frame (update_of_ne ht _ _) rfl (update_of_ne ht _ _)
  | @free u hm =>
    by_cases ht : t = u
    · subst u
      rcases h with h | h
      · exact Or.inl ⟨h.1, h.2.1, by simp⟩
      · exact Or.inr ⟨h.1, h.2.1, by simp⟩
    · exact h.frame rfl rfl (update_of_ne ht _ _)
  | @unref u n hm hn => exact counted_unref_ne h (fun ht => hk (ht ▸ rfl))
  | @drop u n hm ht hn htype hport =>
    exact counted_unref_ne (v := v.unlinkAs u .unregistered) h (fun ht => hk (ht ▸ rfl))
  | @threadStep u m pc hm hf hpc hpf =>
    exact counted_threadStep h (alive_iff.mpr ⟨hm, hf⟩) (alive_iff.mpr ⟨hpc, hpf⟩)
  | @threadUnref u m n hm hn =>
    by_cases ht : t = u
    · subst u
      exact counted_threadUnref h hm hn
    · exact (counted_unref_ne (n := n) h ht).frame (thread_setThread_ne ht m _) rfl rfl
  | quiet | refuse | post | receive | link | receiveRemoval | closeFd | unlink | disconnect
  | kick | skipKick | callKick | dangle => exact h

/-- A transport without dropped references is unregistered only while `unregister_transport`
runs. -/
theorem disconnecting_move {v v' : View} {k : Kind}
    (h : v.status t = .unregistered → v.main ∈ [.kick t, .callKick t, .unref t])
    (hk : k ≠ .release t) (hmove : Move View.Master v k v') :
    v'.status t = .unregistered → v'.main ∈ [.kick t, .callKick t, .unref t] := by
  intro hs
  cases hmove with
  | register type port =>
    by_cases ht : t = v.nextTransport
    · simp [register, ht] at hs
    · exact h (by simpa [register, ht] using hs)
  | @link u hm =>
    by_cases ht : t = u
    · simp [ht] at hs
    · simpa [hm] using h (by simpa [ht] using hs)
  | @unlink u hm =>
    by_cases ht : t = u
    · simp [unlinkAs, ht] at hs
    · simpa [hm] using h (by simpa [unlinkAs, ht] using hs)
  | @disconnect u n hm hu hn =>
    by_cases ht : t = u
    · simp [ht]
    · simpa [hm] using h (by simpa [unlinkAs, ht] using hs)
  | @drop u n hm hu hn htype hport =>
    have ht : t ≠ u := fun he => hk (he ▸ rfl)
    simpa [hm] using h (by simpa [unref, unlinkAs, ht] using hs)
  | @unref u n hm | @dangle u hm =>
    have ht : t ≠ u := fun he => hk (he ▸ rfl)
    exact absurd (h hs) (by simpa [hm, eq_comm] using ht)
  | receive hm | start hm | receiveRemoval hm | closeFd hm | free hm =>
    exact absurd (h hs) (by simp [hm])
  | kick hm | skipKick hm | callKick hm => simpa [hm] using h hs
  | quiet | refuse | post | threadStep | threadUnref => exact h hs

theorem keepsReferences_of_ne {a : Action} (hu : a ≠ .mainUnref)
    (hd : a ≠ .disconnectAll) (w : World) : KeepsReferences t w a :=
  ⟨fun h => hu h.1, fun h => hd h.1⟩

theorem accounted_step {w w' : World} {a : Action} (h : Accounted t w.view)
    (hok : KeepsReferences t w a) (hs : step w a = some w') : Accounted t w'.view := by
  refine invariant_of_moves (I := Accounted t) (K := fun _ k => k ≠ .release t)
    (visits_master fun v h => h.book.closed) ?_ h hs ?_ ?_
  · intro v k v' hI hk hmove
    exact ⟨book_move hI.book hmove, disconnecting_move hI.disconnecting hk hmove,
      counted_move hI.book hI.counted hk hmove⟩
  · intro hk
    unfold Action.kind at hk
    split at hk <;> cases hk
    next hm => exact hok.1 ⟨rfl, hm⟩
  · rintro rfl v u hI hdrop hk
    cases hk
    have hmaster : v.Master (.node t) := hdrop.visited
    obtain ⟨n, hn⟩ := hdrop.live
    -- a live transport that the idle main loop can meet is listed
    cases hst : v.status t with
    | listed => exact hok.2 ⟨rfl, hdrop.tcp, hdrop.port, hdrop.listed hst⟩
    | unborn => exact hmaster.1 hst
    | pending => exact hmaster.2 hst
    | unregistered => simpa [hdrop.main] using hI.disconnecting hst
    | removed => simpa [hn, hdrop.main] using hI.book.removed t hst

/-- Along every run in which no administrative disconnect drops a reference of the transport, its
removal message is posted only after both threads have executed their final `transport_unref`, and
`ref_count` is never below the number of running threads. -/
theorem lifetimeOk_of_keepsReferences {t : TransportId} {w : World}
    (h : Run step (KeepsReferences t) init w) : w.view.LifetimeOk t := by
  have hinit : Accounted t init.view :=
    ⟨book_init, (fun hs => by cases hs), Or.inl ⟨fun _ => rfl, rfl, fun n hn => by cases hn⟩⟩
  exact (h.invariant (I := fun w => Accounted t w.view) hinit
    (fun _ _ _ hI hok hs => accounted_step hI hok hs)).lifetimeOk

/-- A device goes away by itself: the message is posted after both threads have finished. -/
theorem lifetimeOk_device_lost :
    ∃ w, Run step (KeepsReferences 0) init w ∧ w.posted 0 = true ∧ w.view.LifetimeOk 0 := by
  have hrun : (exec step init (connectRun 3 [65] 0 ++ lostRun 0)).map (fun w => w.posted 0) =
      some true := by decide +kernel
  obtain ⟨w, hexec, hposted⟩ := Option.map_eq_some_iff.mp hrun
  have hr : Run step (KeepsReferences 0) init w := by
    refine run_of_exec (fun a ha w => keepsReferences_of_ne ?_ ?_ w) hexec
    · rintro rfl
      simp [connectRun, lostRun] at ha
    · rintro rfl
      simp [connectRun, lostRun] at ha
  exact ⟨w, hr, hposted, lifetimeOk_of_keepsReferences hr⟩

/-- A disconnect, and then one thread exits: the removal message is posted while the other thread
still runs. -/
theorem removal_posted_while_input_runs :
    ∃ w, exec step init (connectRun 3 [65] 0 ++ disconnectRun [65] ++
        [.threadLeave 0 .output, .threadKick 0 .output, .threadUnref 0 .output]) = some w ∧
      w.posted 0 = true ∧ w.thread 0 .input = .running ∧ ¬ w.view.LifetimeOk 0 := by
  have hrun : (exec step init (connectRun 3 [65] 0 ++ disconnectRun [65] ++
      [.threadLeave 0 .output, .threadKick 0 .output, .threadUnref 0 .output])).map
      (fun w => (w.posted 0, w.thread 0 .input)) = some (true, .running) := by decide +kernel
  obtain ⟨w, hexec, hw⟩ := Option.map_eq_some_iff.mp hrun
  obtain ⟨hposted, hinput⟩ : w.posted 0 = true ∧ w.thread 0 .input = .running := by
    simpa using hw
  refine ⟨w, hexec, hposted, hinput, fun hok => ?_⟩
  have hfinished : w.thread 0 .input = .finished := hok.1 hposted .input
  rw [hinput] at hfinished
  cases hfinished

end PaxAdb.Lifecycle
