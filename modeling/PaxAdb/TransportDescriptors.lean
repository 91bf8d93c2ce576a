import PaxAdb.LifecycleBook

/-!
# Descriptors of a TCP transport

`remote_close`, run by whoever drops the last reference, closes `t->fd`. The removal message closes
`t->transport_socket` through `fdevent_remove` and then, with `adb_close`, `t->fd` again. Every
teardown that runs to its end therefore closes one descriptor number twice, and what the second
close hits is whatever the rest of the server has opened in between.
-/

namespace PaxAdb.Lifecycle

open Function (update update_self update_of_ne)
open Ring Runs World View

/-- Each descriptor of a transport that has been torn down was closed exactly once, and every close
executed for it hit that descriptor. -/
def DescriptorsOk (w : World) (t : TransportId) : Prop :=
  (∀ d, w.closes.countP (fun c => c.transport = t ∧ c.descriptor = d) = 1) ∧
    ∀ c ∈ w.closes, c.transport = t → c.hit = some (.transport t c.descriptor)

/-- The main loop is not between the two closes of the removal of `t` and its unlinking. -/
def MainPc.Away (t : TransportId) (pc : MainPc) : Prop :=
  pc ≠ .closeFd t ∧ pc ≠ .unlinkTransport t

def View.messages (v : View) (t : TransportId) : ℕ := v.registration.count (t, false)

/-- How far the teardown of a TCP transport has come, with the number of times `t->fd` has been
closed by then. -/
inductive Teardown (t : TransportId) (v : View) : Prop where
  | notYet (hmsg : v.messages t = 0) (hp : v.posted t = false) (hm : v.main.Away t)
      (hs : v.status t ≠ .removed) (hc : v.fdCloses t = 0)
  | posted (hmsg : v.messages t = 1) (hp : v.posted t = true) (hm : v.main.Away t)
      (hs : v.status t ≠ .removed) (hc : v.fdCloses t = 1)
  | closing (hmsg : v.messages t = 0) (hp : v.posted t = true) (hm : v.main = .closeFd t)
      (hs : v.status t ≠ .removed) (hc : v.fdCloses t = 1)
  | closed (hmsg : v.messages t = 0) (hp : v.posted t = true) (hm : v.main = .unlinkTransport t)
      (hs : v.status t ≠ .removed) (hc : v.fdCloses t = 2)
  | removed (hmsg : v.messages t = 0) (hp : v.posted t = true) (hm : v.main.Away t)
      (hs : v.status t = .removed) (hc : v.fdCloses t = 2)

structure Tracked (t : TransportId) (v : View) : Prop where
  book : Book v
  started : (v.posted t = true ∨ ∃ n, v.refCount t = some n ∧ 0 < n) →
    v.thread t .output ≠ .absent
  spent : v.posted t = true → ∀ n, v.refCount t = some n → n ≤ 0
  unborn : v.status t = .unborn → v.fdCloses t = 0
  stage : v.type t = .tcp → Teardown t v

variable {u t : TransportId}

variable {rest : List (TransportId × Bool)}

section Stages

variable {t : TransportId} {v v' : View}

theorem Teardown.frame (h : Teardown t v) (hmsg : v'.messages t = v.messages t)
    (hp : v'.posted t = v.posted t)
    (hm : v'.main = v.main ∨ v.main.Away t ∧ v'.main.Away t)
    (hs : v'.status t = .removed ↔ v.status t = .removed)
    (hc : v'.fdCloses t = v.fdCloses t) : Teardown t v' := by
  have haway : v.main.Away t → v'.main.Away t := by
    rcases hm with hm | hm
    · rw [hm]
      exact id
    · exact fun _ => hm.2
  have hkeep : ¬ v.main.Away t → v'.main = v.main := fun hn => hm.resolve_right fun h => hn h.1
  cases h with
  | notYet h1 h2 h3 h4 h5 =>
    exact .notYet (hmsg.trans h1) (hp.trans h2) (haway h3) (hs.not.mpr h4) (hc.trans h5)
  | posted h1 h2 h3 h4 h5 =>
    exact .posted (hmsg.trans h1) (hp.trans h2) (haway h3) (hs.not.mpr h4) (hc.trans h5)
  | closing h1 h2 h3 h4 h5 =>
    exact .closing (hmsg.trans h1) (hp.trans h2) ((hkeep fun ha => ha.1 h3).trans h3)
      (hs.not.mpr h4) (hc.trans h5)
  | closed h1 h2 h3 h4 h5 =>
    exact .closed (hmsg.trans h1) (hp.trans h2) ((hkeep fun ha => ha.2 h3).trans h3)
      (hs.not.mpr h4) (hc.trans h5)
  | removed h1 h2 h3 h4 h5 =>
    exact .removed (hmsg.trans h1) (hp.trans h2) (haway h3) (hs.mpr h4) (hc.trans h5)

theorem away_of_ending_ne {pc : MainPc} (h : pc.ending ≠ some t) : pc.Away t := by
  constructor
  · rintro rfl
    exact h rfl
  · rintro rfl
    exact h rfl

theorem messages_unref (u : TransportId) (n : ℤ) :
    (v.unref u n).messages t = v.messages t + if u = t ∧ n = 1 then 1 else 0 := by
  by_cases h1 : n = 1
  · simp [messages, unref, h1, List.count_append, List.count_singleton]
  · simp [messages, unref, h1]

section Steps

variable (h : Tracked t v)

include h

theorem Tracked.not_posted_of_unborn (hs : v.status t = .unborn) : v.posted t = false := by
  by_contra hp
  exact (h.book.thread t .output (h.started (.inl (by simpa using hp)))).1 hs

theorem Tracked.notYet_of_unborn (hs : v.status t = .unborn) :
    v.messages t = 0 ∧ v.posted t = false ∧ v.main.Away t ∧ v.fdCloses t = 0 := by
  refine ⟨List.count_eq_zero.mpr fun hmem => (h.book.removal t hmem).1 hs,
    h.not_posted_of_unborn hs, ?_, h.unborn hs⟩
  exact away_of_ending_ne fun hend => (h.book.ending t hend).1 hs

/-- Dropping a reference, by whichever thread, moves the transport on from the first stage when it
was the last one. -/
theorem Tracked.unref {n : ℤ} (hu : v.Active u)
    (hn : v.refCount u = some n) : Tracked t (v.unref u n) := by
  by_cases hut : t = u
  · subst u
    have hnot : n = 1 → v.posted t = false := by
      intro h1
      by_contra hp
      have := h.spent (by simpa using hp) n hn
      omega
    refine ⟨h.book.unref hu hn, ?_, ?_, fun hs => absurd hs hu.1, ?_⟩
    · rintro (hp | ⟨k, hk, hpos⟩)
      · by_cases h1 : n = 1
        · exact h.started (.inr ⟨n, hn, by omega⟩)
        · exact h.started (.inl (by simpa [unref, h1] using hp))
      · have hk' : n - 1 = k := by simpa [unref] using hk
        exact h.started (.inr ⟨n, hn, by omega⟩)
    · intro hp k hk
      have hk' : n - 1 = k := by simpa [unref] using hk
      by_cases h1 : n = 1
      · omega
      · have := h.spent (by simpa [unref, h1] using hp) n hn
        omega
    · intro htype
      have hstage := h.stage htype
      by_cases h1 : n = 1
      · have hmsg := messages_unref (v := v) (t := t) t n
        cases hstage with
        | notYet hmsg0 _ hm hs hc =>
          refine .posted (by rw [hmsg, hmsg0]; simp [h1]) (by simp [unref, h1]) hm hs ?_
          have htype' : v.type t = .tcp := htype
          simp [unref, h1, htype', hc]
        | posted _ hp | closing _ hp | closed _ hp | removed _ hp =>
          exact absurd hp (by simp [hnot h1])
      · refine hstage.frame ?_ ?_ (.inl rfl) Iff.rfl ?_
        · rw [messages_unref]
          simp [h1]
        · simp [unref, h1]
        · simp [unref, h1]
  · have hposted : (v.unref u n).posted t = v.posted t := by
      by_cases h1 : n = 1 <;> simp [View.unref, h1, hut]
    have hcount : (v.unref u n).refCount t = v.refCount t := update_of_ne hut _ _
    have hcloses : (v.unref u n).fdCloses t = v.fdCloses t := by
      simp only [View.unref]
      split
      · exact update_of_ne hut _ _
      · rfl
    refine ⟨h.book.unref hu hn, ?_, ?_, ?_, fun htype => (h.stage htype).frame ?_ hposted
      (.inl rfl) Iff.rfl hcloses⟩
    · rw [hposted, hcount]
      exact h.started
    · rw [hposted, hcount]
      exact h.spent
    · rw [hcloses]
      exact h.unborn
    · rw [messages_unref]
      simp [Ne.symm hut]

theorem Tracked.frame (hb : Book v') (hposted : v'.posted t = v.posted t)
    (hcount : v'.refCount t = v.refCount t) (hthread : v'.thread t = v.thread t)
    (hc : v'.fdCloses t = v.fdCloses t) (htype : v'.type t = v.type t)
    (hborn : v'.status t = .unborn → v.status t = .unborn) (hmsg : v'.messages t = v.messages t)
    (hm : v'.main = v.main ∨ v.main.Away t ∧ v'.main.Away t)
    (hs : v'.status t = .removed ↔ v.status t = .removed) : Tracked t v' where
  book := hb
  started := by
    rw [hposted, hcount, hthread]
    exact h.started
  spent := by
    rw [hposted, hcount]
    exact h.spent
  unborn hst := hc.trans (h.unborn (hborn hst))
  stage htcp := (h.stage (htype ▸ htcp)).frame hmsg hposted hm hs hc

theorem Tracked.setThread {m : ThreadName} {pc : ThreadPc}
    (hb : Book (v.setThread u m pc)) (hpc : pc ≠ .absent) : Tracked t (v.setThread u m pc) where
  book := hb
  started hst := by
    by_cases hu : t = u
    · subst u
      cases m
      · simpa [View.setThread] using hpc
      · simpa [View.setThread] using h.started hst
    · simpa [View.setThread, hu] using h.started hst
  spent := h.spent
  unborn := h.unborn
  stage htcp := (h.stage htcp).frame rfl rfl (.inl rfl) Iff.rfl rfl

theorem Tracked.setMain {pc : MainPc} (hb : Book { v with main := pc })
    (hm : v.main.Away t) (hpc : pc.Away t) : Tracked t { v with main := pc } :=
  h.frame hb rfl rfl rfl rfl rfl id rfl (.inr ⟨hm, hpc⟩) Iff.rfl

theorem Tracked.receive (hr : v.registration = (u, true) :: rest) (hm : v.main = .idle)
    (hb : Book { v with registration := rest, main := .linkTransport u }) :
    Tracked t { v with registration := rest, main := .linkTransport u } := by
  refine h.frame hb rfl rfl rfl rfl rfl id ?_ (.inr ⟨?_, ?_⟩) Iff.rfl
  · simp [messages, hr]
  · rw [hm]
    exact away_of_ending_ne (by simp [MainPc.ending])
  · exact away_of_ending_ne (by simp [MainPc.ending])

theorem Tracked.start
    (hr : v.registration = (u, true) :: rest) (hm : v.main = .idle) (hb : Book { v with
      registration := rest, main := .linkTransport u
      refCount := update v.refCount u (some 2)
      thread := update v.thread u (fun _ => .running) }) :
    Tracked t { v with
      registration := rest, main := .linkTransport u
      refCount := update v.refCount u (some 2)
      thread := update v.thread u (fun _ => .running) } := by
  have haway : v.main.Away t := by
    rw [hm]
    exact away_of_ending_ne (by simp [MainPc.ending])
  have hmsg : messages { v with
      registration := rest, main := .linkTransport u
      refCount := update v.refCount u (some 2)
      thread := update v.thread u (fun _ => .running) } t = v.messages t := by
    simp [messages, hr]
  have haway' : (MainPc.linkTransport u).Away t := away_of_ending_ne (by simp [MainPc.ending])
  by_cases hu : t = u
  · subst u
    have hpending : v.status t = .pending := h.book.pending t (by simp [awaiting, hr])
    -- a posted transport has left the state in which it can be started
    have hposted : v.posted t = false := by
      by_contra hp
      have hactive := h.book.thread t .output (h.started (.inl (by simpa using hp)))
      exact absurd (hactive.2 hpending) (by simp [hm])
    exact ⟨hb, fun _ => by simp, fun hp => absurd hp (by simp [hposted]), h.unborn,
      fun htcp => (h.stage htcp).frame hmsg rfl (.inr ⟨haway, haway'⟩) Iff.rfl rfl⟩
  · exact h.frame hb rfl (update_of_ne hu _ _) (update_of_ne hu _ _) rfl rfl id
      hmsg (.inr ⟨haway, haway'⟩) Iff.rfl

theorem Tracked.register (type : TransportType) (port : ℕ) (serial : Option (List Byte)) :
    Tracked t (v.register type port serial) := by
  have hb := h.book.register type port serial
  by_cases ht : t = v.nextTransport
  · have hborn : v.status t = .unborn := h.book.fresh t ht.ge
    obtain ⟨hmsg, hposted, hm, hc⟩ := h.notYet_of_unborn hborn
    refine ⟨hb, ?_, fun hp => absurd hp (by simp [View.register, hposted]), fun _ => hc,
      fun _ => .notYet hmsg hposted hm (by simp [View.register, ht]) hc⟩
    rintro (hp | ⟨n, hn, hpos⟩)
    · exact absurd hp (by simp [View.register, hposted])
    · simp only [View.register, ht, update_self, Option.some.injEq] at hn
      omega
  · refine h.frame hb rfl (update_of_ne ht _ _) rfl rfl (update_of_ne ht _ _)
      ?_ rfl (.inl rfl) ?_
    · simp [View.register, ht]
    · simp [View.register, ht]

theorem Tracked.link (hm : v.main = .linkTransport u) : Tracked t { v with
      links := (v.links.unlink (.node u)).insertTail .transportList (.node u)
      status := update v.status u .listed
      main := .idle } := by
  have hpending : v.status u = .pending :=
    h.book.pending u (by simp [awaiting, hm, MainPc.linking])
  refine h.frame (h.book.link hm) rfl rfl rfl rfl rfl ?_ rfl (.inr ⟨?_, ?_⟩) ?_
  · by_cases ht : t = u <;> simp [ht]
  · rw [hm]
    exact away_of_ending_ne (by simp [MainPc.ending])
  · exact away_of_ending_ne (by simp [MainPc.ending])
  · by_cases ht : t = u <;> simp [ht, hpending]

theorem Tracked.receiveRemoval (hm : v.main = .idle) (hr : v.registration = (u, false) :: rest)
    (hb : Book { v with registration := rest, main := .closeFd u }) :
    Tracked t { v with registration := rest, main := .closeFd u } := by
  have haway : v.main.Away t := by
    rw [hm]
    exact away_of_ending_ne (by simp [MainPc.ending])
  by_cases ht : t = u
  · subst u
    have hmsg : v.messages t = rest.count (t, false) + 1 := by simp [messages, hr]
    refine ⟨hb, h.started, h.spent, h.unborn, fun htcp => ?_⟩
    cases h.stage htcp with
    | posted h1 hp _ hs hc =>
      exact .closing (by simp only [messages]; omega) hp rfl hs hc
    | notYet | closing | closed | removed => omega
  · refine h.frame hb rfl rfl rfl rfl rfl id ?_ (.inr ⟨haway, ?_⟩) Iff.rfl
    · simp [messages, hr, Ne.symm ht]
    · exact away_of_ending_ne (by simpa [MainPc.ending, eq_comm] using ht)

theorem Tracked.closeFd (hm : v.main = .closeFd u)
    (hb : Book { v.closeFd u with main := .unlinkTransport u }) :
    Tracked t { v.closeFd u with main := .unlinkTransport u } := by
  by_cases ht : t = u
  · subst u
    have hactive := h.book.ending t (by rw [hm]; rfl)
    refine ⟨hb, h.started, h.spent, fun hs => absurd hs hactive.1, fun htcp => ?_⟩
    cases h.stage htcp with
    | closing h1 hp _ hs hc => exact .closed h1 hp rfl hs (by simp [closeFd, hc])
    | notYet _ _ ha | posted _ _ ha | removed _ _ ha => exact absurd hm ha.1
    | closed _ _ ha => exact absurd (hm.symm.trans ha) (by simp)
  · refine h.frame hb rfl rfl rfl (update_of_ne ht _ _) rfl id rfl (.inr ⟨?_, ?_⟩)
      Iff.rfl
    · rw [hm]
      exact away_of_ending_ne (by simpa [MainPc.ending, eq_comm] using ht)
    · exact away_of_ending_ne (by simpa [MainPc.ending, eq_comm] using ht)

theorem Tracked.removal (hm : v.main = .unlinkTransport u)
    (hb : Book { v.unlinkAs u .removed with main := .freeTransport u }) :
    Tracked t { v.unlinkAs u .removed with main := .freeTransport u } := by
  by_cases ht : t = u
  · subst u
    refine ⟨hb, h.started, h.spent, fun hs => ?_, fun htcp => ?_⟩
    · simp [unlinkAs] at hs
    · cases h.stage htcp with
      | closed h1 hp _ hs hc =>
        exact .removed h1 hp ⟨by simp, by simp⟩ (by simp [unlinkAs]) hc
      | notYet _ _ ha | posted _ _ ha | removed _ _ ha => exact absurd hm ha.2
      | closing _ _ ha => exact absurd (hm.symm.trans ha) (by simp)
  · refine h.frame hb rfl rfl rfl rfl rfl ?_ rfl (.inr ⟨?_, ?_⟩) ?_
    · simp [unlinkAs, ht]
    · rw [hm]
      exact away_of_ending_ne (by simpa [MainPc.ending, eq_comm] using ht)
    · exact ⟨by simp, by simp⟩
    · simp [unlinkAs, ht]

theorem Tracked.unregister {n : ℤ} {pc : MainPc}
    (hm : v.main = .idle) (hn : v.refCount u = some n) (hpc : pc.Away t)
    (hb : Book { v.unlinkAs u .unregistered with main := pc }) :
    Tracked t { v.unlinkAs u .unregistered with main := pc } := by
  have haway : v.main.Away t := by
    rw [hm]
    exact away_of_ending_ne (by simp [MainPc.ending])
  have hlive : v.status u ≠ .removed := by
    intro hs
    simpa [hn, hm] using h.book.removed u hs
  refine h.frame hb rfl rfl rfl rfl rfl ?_ rfl (.inr ⟨haway, hpc⟩) ?_
  · by_cases ht : t = u <;> simp [unlinkAs, ht]
  · by_cases ht : t = u <;> simp [unlinkAs, ht, hlive]

end Steps

end Stages

theorem away_of_main {v : View} {pc : MainPc} (hm : v.main = pc)
    (hpc : pc.Away t) : v.main.Away t := hm ▸ hpc

theorem tracked_move {v v' : View} {k : Kind} (h : Tracked t v)
    (hmove : Move View.Master v k v') : Tracked t v' := by
  have hb : Book v' := book_move h.book hmove
  cases hmove with
  | quiet => exact h
  | refuse => exact h.frame hb rfl rfl rfl rfl rfl id rfl (.inl rfl) Iff.rfl
  | register type port serial => exact h.register type port serial
  | post ht =>
    refine h.frame hb rfl rfl rfl rfl rfl id ?_ (.inl rfl) Iff.rfl
    simp [messages, List.count_append]
  | receive hm hr => exact h.receive hr hm hb
  | start hm hr => exact h.start hr hm hb
  | link hm => exact h.link hm
  | receiveRemoval hm hr => exact h.receiveRemoval hm hr hb
  | closeFd hm => exact h.closeFd hm hb
  | unlink hm => exact h.removal hm hb
  | @free u hm =>
    have haway : v.main.Away t := away_of_main hm ⟨by simp, by simp⟩
    have hidle : MainPc.idle.Away t := ⟨by simp, by simp⟩
    by_cases ht : t = u
    · subst u
      refine ⟨hb, ?_, fun _ n hn => absurd hn (by simp), h.unborn,
        fun htcp => (h.stage htcp).frame rfl rfl (.inr ⟨haway, hidle⟩) Iff.rfl rfl⟩
      rintro (hp | ⟨n, hn, _⟩)
      · exact h.started (.inl hp)
      · exact absurd hn (by simp)
    · exact h.frame hb rfl (update_of_ne ht _ _) rfl rfl rfl id rfl
        (.inr ⟨haway, hidle⟩) Iff.rfl
  | disconnect hm ht hn => exact h.unregister hm hn ⟨by simp, by simp⟩ hb
  | kick hm | skipKick hm | callKick hm | dangle hm =>
    exact h.setMain hb (away_of_main hm ⟨by simp, by simp⟩) ⟨by simp, by simp⟩
  | @unref u n hm hn =>
    have hactive := h.book.ending u (by rw [hm]; rfl)
    exact (h.unref hactive hn).setMain hb
      (away_of_main (v := v.unref u n) hm ⟨by simp, by simp⟩) ⟨by simp, by simp⟩
  | @drop u n hm ht hn htype hport =>
    have hunlink : Book { v.unlinkAs u .unregistered with main := v.main } :=
      h.book.unlinkAs ht (by rw [hm]; rfl) (by simp [hm]) (by rw [hm]; rfl)
        (fun w hw => by rw [hm] at hw; cases hw) (.inl ⟨rfl, by simp [hm]⟩)
    have hmaster := (master_unlinkAs (s := .unregistered) (by simp) (by simp) ht (.node u)).mpr ht
    exact Tracked.unref (h.unregister hm hn (away_of_main hm ⟨by simp, by simp⟩) hunlink)
      (active_of_master hmaster) hn
  | threadStep hm hf hpc hpf => exact h.setThread hb hpc
  | @threadUnref u m n hm hn =>
    exact (h.unref (h.book.thread u m (by simp [hm])) hn).setThread hb (by simp)

theorem tracked_init (t : TransportId) : Tracked t init.view where
  book := book_init
  started := by
    rintro (hp | ⟨n, hn, _⟩)
    · cases hp
    · cases hn
  spent := by
    intro hp
    cases hp
  unborn _ := rfl
  stage _ := .notYet rfl rfl ⟨by simp [init, view], by simp [init, view]⟩
    (by simp [init, view]) rfl

theorem tracked_step {w w' : World} {a : Action} (h : Tracked t w.view)
    (hs : step w a = some w') : Tracked t w'.view :=
  invariant_of_moves (K := fun _ _ => True) (visits_master fun _ h => h.book.closed)
    (fun _ _ _ hv _ hmove => tracked_move hv hmove) h hs trivial (fun _ _ _ _ _ => trivial)

theorem tracked_run {w : World} (h : Run step (fun _ _ => True) init w) : Tracked t w.view :=
  h.invariant (I := fun w => Tracked t w.view) (tracked_init t) fun _ _ _ hI _ hs =>
    tracked_step hI hs

/-- In every run, a TCP transport that has been torn down to the end has had `t->fd` closed twice,
so its descriptors were never closed exactly once each. -/
theorem descriptors_never_closed_once {t : TransportId} {w : World}
    (h : Run step (fun _ _ => True) init w) (htype : w.type t = .tcp)
    (hs : w.status t = .removed) :
    w.closes.countP (fun c => c.transport = t ∧ c.descriptor = .fd) = 2 ∧ ¬ DescriptorsOk w t := by
  have htwo : w.closes.countP (fun c => c.transport = t ∧ c.descriptor = .fd) = 2 := by
    cases (tracked_run (t := t) h).stage htype with
    | removed _ _ _ _ hc => exact hc
    | notYet _ _ _ hne | posted _ _ _ hne | closing _ _ _ hne | closed _ _ _ hne =>
      exact absurd hs hne
  refine ⟨htwo, fun hok => ?_⟩
  have hone := hok.1 .fd
  omega

def teardownRun : List Action :=
  connectRun 3 [65] 0 ++ lostRun 0 ++ [.receiveRemoval, .closeFd, .unlinkTransport, .freeTransport]

/-- The plain teardown of one device, with nothing else going on in the server. -/
theorem descriptors_never_closed_once_alone :
    ∃ w, Run step (fun _ _ => True) init w ∧ w.type 0 = .tcp ∧ w.status 0 = .removed ∧
      ¬ DescriptorsOk w 0 := by
  have hrun : (exec step init teardownRun).map (fun w => (w.type 0, w.status 0)) =
      some (.tcp, .removed) := by decide +kernel
  obtain ⟨w, hexec, hw⟩ := Option.map_eq_some_iff.mp hrun
  obtain ⟨htype, hs⟩ : w.type 0 = .tcp ∧ w.status 0 = .removed := by simpa using hw
  have hr : Run step (fun _ _ => True) init w :=
    run_of_exec (fun _ _ _ => trivial) hexec
  exact ⟨w, hr, htype, hs, (descriptors_never_closed_once hr htype hs).2⟩

/-- Another part of the server opens a file between the two closes and is given the number the first
one freed; the second close hits it. -/
theorem second_close_hits_other :
    ∃ w, exec step init (connectRun 3 [65] 0 ++ lostRun 0 ++
        [.openFile 11, .receiveRemoval, .closeFd, .unlinkTransport, .freeTransport]) = some w ∧
      ⟨0, .fd, 11, some .other⟩ ∈ w.closes ∧ ¬ DescriptorsOk w 0 := by
  have hrun : (exec step init (connectRun 3 [65] 0 ++ lostRun 0 ++
      [.openFile 11, .receiveRemoval, .closeFd, .unlinkTransport, .freeTransport])).map
      (fun w => w.closes) =
      some [⟨0, .sfd, 3, some (.transport 0 .sfd)⟩, ⟨0, .fd, 11, some (.transport 0 .fd)⟩,
        ⟨0, .transportSocket, 10, some (.transport 0 .transportSocket)⟩,
        ⟨0, .fd, 11, some .other⟩] := by decide +kernel
  obtain ⟨w, hexec, hw⟩ := Option.map_eq_some_iff.mp hrun
  have hmem : ⟨0, .fd, 11, some .other⟩ ∈ w.closes := by simp [hw]
  exact ⟨w, hexec, hmem, fun hok => by simpa using hok.2 _ hmem rfl⟩

end PaxAdb.Lifecycle
