import PaxAdb.LifecycleView

/-!
# Bookkeeping common to all runs of the transport life cycle

`Book` collects what holds along every run, whatever the users disconnect: a registration message
belongs to a transport that is still pending and to no other message, threads and removal messages
belong to transports that have left `pending_list`, a removed transport is freed before the main
loop does anything else, `pending_list` is a ring of exactly the pending transports, and the links
of transports that have ever been on `transport_list` never lead back to it.
-/

namespace PaxAdb.Lifecycle

open Function (update update_self update_of_ne)
open Ring Runs World View List

def MainPc.ending : MainPc → Option TransportId
  | .closeFd t | .unlinkTransport t | .freeTransport t | .kick t | .callKick t | .unref t => some t
  | .idle | .linkTransport _ => none

def MainPc.linking : MainPc → List TransportId
  | .linkTransport t => [t]
  | _ => []

namespace View

variable (v : View)

def awaiting : List TransportId :=
  v.unposted ++ (v.registration.filter (·.2)).map (·.1) ++ v.main.linking

def Active (t : TransportId) : Prop :=
  v.status t ≠ .unborn ∧ (v.status t = .pending → v.main = .linkTransport t)

end View

structure Book (v : View) : Prop where
  fresh : ∀ t, v.nextTransport ≤ t → v.status t = .unborn
  nodup : v.awaiting.Nodup
  pending : ∀ t ∈ v.awaiting, v.status t = .pending
  thread : ∀ t n, v.thread t n ≠ .absent → v.Active t
  removal : ∀ t, (t, false) ∈ v.registration → v.Active t
  ending : ∀ t, v.main.ending = some t → v.Active t
  freeing : ∀ t, v.main = .freeTransport t → v.status t = .removed
  removed : ∀ t, v.status t = .removed → v.refCount t = none ∨ v.main = .freeTransport t
  pendingRing : ∃ P : List TransportId, IsRing v.links .pendingList (P.map .node) ∧
    ∀ t, t ∈ P ↔ v.status t = .pending
  closed : v.Closed

section Links

variable {v : View} {t : TransportId}

theorem Book.not_master {P : List TransportId} (hP : ∀ t, t ∈ P ↔ v.status t = .pending) {r : Ref}
    (hr : r ∈ Ref.pendingList :: P.map .node) : ¬ v.Master r := by
  rcases mem_cons.mp hr with rfl | hr
  · exact id
  · obtain ⟨u, hu, rfl⟩ := mem_map.mp hr
    exact fun hm => hm.2 ((hP u).mp hu)

theorem View.Active.master (h : v.Active t) (hl : v.main.linking = []) : v.Master (.node t) := by
  refine ⟨h.1, fun hp => ?_⟩
  rw [h.2 hp] at hl
  cases hl

theorem active_of_master (h : v.Master (.node t)) : v.Active t :=
  ⟨h.1, fun hp => absurd hp h.2⟩

theorem master_unlinkAs {s : Status} (hs : s ≠ .unborn) (hs' : s ≠ .pending)
    (ht : v.Master (.node t)) (r : Ref) : (v.unlinkAs t s).Master r ↔ v.Master r := by
  cases r with
  | pendingList => exact Iff.rfl
  | transportList => exact Iff.rfl
  | node u =>
    by_cases hu : u = t
    · subst u
      simp only [View.Master, unlinkAs, update_self]
      exact ⟨fun _ => ht, fun _ => ⟨hs, hs'⟩⟩
    · simp only [View.Master, unlinkAs, update_of_ne hu]

theorem closed_unlinkAs {s : Status} (hc : v.Closed) (hs : s ≠ .unborn) (hs' : s ≠ .pending)
    (ht : v.Master (.node t)) : (v.unlinkAs t s).Closed := by
  intro r hr
  rw [master_unlinkAs hs hs' ht] at hr
  rw [master_unlinkAs hs hs' ht, master_unlinkAs hs hs' ht]
  obtain ⟨hnext, hprev⟩ := hc r hr
  obtain ⟨hnt, hpt⟩ := hc _ ht
  simp only [unlinkAs, Links.unlink_eq]
  constructor
  · by_cases he : r = v.links.prev (.node t)
    · rw [he, update_self]
      exact hnt
    · rw [update_of_ne he]
      exact hnext
  · by_cases he : r = v.links.next (.node t)
    · rw [he, update_self]
      exact hpt
    · rw [update_of_ne he]
      exact hprev

theorem nodup_of_isRing {m : Links Ref} {h : Ref} {l : List TransportId}
    (hr : IsRing m h (l.map .node)) : l.Nodup :=
  List.Nodup.of_map _ (nodup_cons.mp hr.2).2

theorem isRing_unlink_node {m : Links Ref} {h : Ref} {l : List TransportId}
    (hr : IsRing m h (l.map .node)) (ht : t ∈ l) :
    IsRing (m.unlink (.node t)) h ((l.erase t).map .node) := by
  have hinj : Function.Injective Ref.node := fun a b hab => Ref.node.inj hab
  rw [map_erase hinj]
  exact hr.unlink (mem_map_of_mem ht)

section Pending

variable {P : List TransportId} (hc : v.Closed) (hP : ∀ t, t ∈ P ↔ v.status t = .pending)
  (hr : IsRing v.links .pendingList (P.map .node))

include hP hr

include hc in
theorem pendingRing_unlink (ht : v.Master (.node t)) :
    IsRing (v.links.unlink (.node t)) .pendingList (P.map .node) := by
  obtain ⟨hnt, hpt⟩ := hc _ ht
  rw [Links.unlink_eq]
  refine hr.frame (fun x hx => ?_) (fun x hx => ?_)
  · have hne : x ≠ v.links.prev (.node t) := by
      rintro rfl
      exact Book.not_master hP hx hpt
    exact update_of_ne hne _ _
  · have hne : x ≠ v.links.next (.node t) := by
      rintro rfl
      exact Book.not_master hP hx hnt
    exact update_of_ne hne _ _

theorem insertTail_pending_keeps (ht : v.status t = .unborn) {r : Ref} (hm : v.Master r) :
    (v.links.insertTail .pendingList (.node t)).next r = v.links.next r ∧
      (v.links.insertTail .pendingList (.node t)).prev r = v.links.prev r := by
  obtain ⟨pre, hpre, _⟩ := hr.prev_head
  have hlast : v.links.prev .pendingList ∈ Ref.pendingList :: P.map .node := by rw [hpre]; simp
  have hrt : r ≠ .node t := by
    rintro rfl
    exact hm.1 ht
  have hrl : r ≠ v.links.prev .pendingList := by
    rintro rfl
    exact Book.not_master hP hlast hm
  have hrp : r ≠ .pendingList := by
    rintro rfl
    exact hm
  rw [Links.insertTail_eq _ (by simp)]
  simp only [update_of_ne hrt, update_of_ne hrl, update_of_ne hrp, true_and]

include hc in
theorem closed_register {v' : View} (ht : v.status t = .unborn)
    (hlinks : v'.links = v.links.insertTail .pendingList (.node t))
    (hstatus : v'.status = update v.status t .pending) : v'.Closed := by
  have hmaster : ∀ r, v'.Master r ↔ v.Master r := by
    intro r
    cases r with
    | pendingList | transportList => exact Iff.rfl
    | node u =>
      by_cases hu : u = t
      · subst u
        simp [View.Master, hstatus, ht]
      · simp only [View.Master, hstatus, update_of_ne hu]
  intro r hm
  rw [hmaster] at hm
  obtain ⟨hnext, hprev⟩ := insertTail_pending_keeps hP hr ht hm
  rw [hmaster, hmaster, hlinks, hnext, hprev]
  exact hc r hm

theorem unlink_pending_keeps (ht : v.status t = .pending) {r : Ref} (hm : v.Master r) :
    (v.links.unlink (.node t)).next r = v.links.next r ∧
      (v.links.unlink (.node t)).prev r = v.links.prev r := by
  have htP : Ref.node t ∈ P.map Ref.node := mem_map_of_mem ((hP t).mpr ht)
  have hrn : r ≠ v.links.next (.node t) := by
    rintro rfl
    exact Book.not_master hP (hr.next_mem htP) hm
  have hrp : r ≠ v.links.prev (.node t) := by
    rintro rfl
    exact Book.not_master hP (hr.prev_mem htP) hm
  rw [Links.unlink_eq]
  exact ⟨update_of_ne hrp _ _, update_of_ne hrn _ _⟩

include hc in
theorem closed_link {v' : View} (ht : v.status t = .pending)
    (hlinks : v'.links = (v.links.unlink (.node t)).insertTail .transportList (.node t))
    (hstatus : v'.status = update v.status t .listed) : v'.Closed := by
  have hmaster : ∀ r, v'.Master r ↔ v.Master r ∨ r = .node t := by
    intro r
    cases r with
    | pendingList | transportList => simp [View.Master]
    | node u =>
      by_cases hu : u = t
      · subst u
        simp [View.Master, hstatus]
      · simp [View.Master, hstatus, hu]
  have hold : ∀ r, v.Master r → (v.links.unlink (.node t)).next r = v.links.next r ∧
      (v.links.unlink (.node t)).prev r = v.links.prev r :=
    fun r hm => unlink_pending_keeps hP hr ht hm
  have hhead := (hold .transportList trivial).2
  have hlast : v.Master (v.links.prev .transportList) := (hc .transportList trivial).2
  intro r hm
  rw [hmaster] at hm
  rw [hmaster, hmaster, hlinks, Links.insertTail_eq _ (by simp), hhead]
  dsimp only
  have hrt : v.Master r → r ≠ .node t := by
    rintro hm rfl
    exact hm.2 ht
  constructor
  · by_cases hrl : r = v.links.prev .transportList
    · exact .inr (by rw [hrl, update_self])
    · rw [update_of_ne hrl]
      rcases hm with hm | rfl
      · rw [update_of_ne (hrt hm), (hold r hm).1]
        exact .inl (hc r hm).1
      · rw [update_self]
        exact .inl trivial
  · by_cases hrh : r = .transportList
    · exact .inr (by rw [hrh, update_self])
    · rw [update_of_ne hrh]
      rcases hm with hm | rfl
      · rw [update_of_ne (hrt hm), (hold r hm).2]
        exact .inl (hc r hm).2
      · rw [update_self]
        exact .inl hlast

include hc in
theorem pendingRing_link (ht : t ∈ P) :
    IsRing ((v.links.unlink (.node t)).insertTail .transportList (.node t)) .pendingList
      ((P.erase t).map .node) := by
  have hmem : ∀ x ∈ Ref.pendingList :: (P.erase t).map .node,
      x ∈ Ref.pendingList :: P.map .node := by
    intro x hx
    exact cons_subset_cons _ (map_subset _ erase_subset) hx
  have hne : ∀ x ∈ Ref.pendingList :: (P.erase t).map .node, x ≠ .node t := by
    rintro x hx rfl
    simp [(nodup_of_isRing hr).mem_erase_iff] at hx
  have hpt : (v.links.unlink (.node t)).prev .transportList = v.links.prev .transportList :=
    (unlink_pending_keeps (r := .transportList) hP hr ((hP t).mp ht) trivial).2
  rw [Links.insertTail_eq _ (by simp), hpt]
  refine (isRing_unlink_node hr ht).frame (fun x hx => ?_) (fun x hx => ?_)
  · have hxl : x ≠ v.links.prev .transportList := by
      rintro rfl
      exact Book.not_master hP (hmem _ hx) (hc .transportList trivial).2
    simp only [update_of_ne hxl, update_of_ne (hne x hx)]
  · have hxh : x ≠ .transportList := by
      rintro rfl
      exact Book.not_master hP (hmem _ hx) trivial
    simp only [update_of_ne hxh, update_of_ne (hne x hx)]

end Pending

end Links

section Moves

variable {v : View} {t : TransportId}

theorem Book.setMain (h : Book v) {pc : MainPc} (hl : v.main.linking = [])
    (hpc : pc.linking = []) (hf : ∀ t, v.main ≠ .freeTransport t)
    (hpf : ∀ t, pc ≠ .freeTransport t) (hend : ∀ t, pc.ending = some t → v.Active t) :
    Book { v with main := pc } where
  fresh := h.fresh
  nodup := by
    have hn := h.nodup
    simp only [awaiting, hl] at hn
    simpa only [awaiting, hpc] using hn
  pending u hu := h.pending u (by simpa only [awaiting, hpc, hl] using hu)
  thread u n hu := active_of_master ((h.thread u n hu).master hl)
  removal u hu := active_of_master ((h.removal u hu).master hl)
  ending u hu := active_of_master ((hend u hu).master hl)
  freeing u hu := absurd hu (hpf u)
  removed u hu := .inl ((h.removed u hu).resolve_right (hf u))
  pendingRing := h.pendingRing
  closed := h.closed

theorem awaiting_unref (v : View) (t : TransportId) (n : ℤ) :
    (v.unref t n).awaiting = v.awaiting := by
  by_cases h1 : n = 1 <;> simp [awaiting, unref, h1]

theorem Book.unref (h : Book v) {n : ℤ} (ht : v.Active t) (hn : v.refCount t = some n) :
    Book (v.unref t n) where
  fresh := h.fresh
  nodup := (awaiting_unref v t n).symm ▸ h.nodup
  pending u hu := h.pending u (awaiting_unref v t n ▸ hu)
  thread := h.thread
  removal u hu := by
    rcases mem_append.mp hu with hu | hu
    · exact h.removal u hu
    · split at hu
      · cases mem_singleton.mp hu
        exact ht
      · cases hu
  ending := h.ending
  freeing := h.freeing
  removed u hu := by
    by_cases hut : u = t
    · subst u
      exact .inr ((h.removed t hu).resolve_left (by simp [hn]))
    · simpa [View.unref, update_of_ne hut] using h.removed u hu
  pendingRing := h.pendingRing
  closed := h.closed

theorem Book.setThread (h : Book v) (ht : v.Active t) (n : ThreadName) (pc : ThreadPc) :
    Book (v.setThread t n pc) := by
  refine { h with thread := fun u m hu => ?_ }
  by_cases hut : u = t
  · subst u
    exact ht
  · exact h.thread u m (by simpa [View.setThread, update_of_ne hut] using hu)

theorem Book.register (h : Book v) (type : TransportType) (port : ℕ)
    (serial : Option (List Byte)) : Book (v.register type port serial) := by
  have hborn : v.status v.nextTransport = .unborn := h.fresh _ le_rfl
  have hnew : ∀ u, v.status u ≠ .unborn → u ≠ v.nextTransport := by
    rintro u hu rfl
    exact hu hborn
  have hawait : (v.register type port serial).awaiting.Perm (v.nextTransport :: v.awaiting) := by
    simp only [View.awaiting, View.register, List.append_assoc, List.singleton_append]
    exact List.perm_middle
  have hstatus : ∀ u, v.status u ≠ .unborn →
      (v.register type port serial).status u = v.status u :=
    fun u hu => update_of_ne (hnew u hu) _ _
  have hactive : ∀ {u : TransportId}, v.Active u → (v.register type port serial).Active u := by
    intro u hu
    rw [View.Active, hstatus u hu.1]
    exact hu
  obtain ⟨P, hring, hP⟩ := h.pendingRing
  refine ⟨?_, ?_, ?_, ?_, ?_, ?_, ?_, ?_, ?_, ?_⟩
  · intro u hu
    have hlt : v.nextTransport < u := hu
    exact (update_of_ne (Nat.ne_of_gt hlt) _ _).trans (h.fresh u hlt.le)
  · refine hawait.nodup_iff.mpr (List.nodup_cons.mpr ⟨fun hm => ?_, h.nodup⟩)
    exact absurd (h.pending _ hm) (by simp [hborn])
  · intro u hu
    rcases List.mem_cons.mp (hawait.mem_iff.mp hu) with rfl | hu
    · exact update_self ..
    · have hp := h.pending u hu
      exact (hstatus u (by simp [hp])).trans hp
  · exact fun u n hu => hactive (h.thread u n hu)
  · exact fun u hu => hactive (h.removal u hu)
  · exact fun u hu => hactive (h.ending u hu)
  · intro u hu
    have hr := h.freeing u hu
    exact (hstatus u (by simp [hr])).trans hr
  · intro u hu
    by_cases hut : u = v.nextTransport
    · subst u
      simp [View.register] at hu
    · simp only [View.register, update_of_ne hut] at hu ⊢
      exact h.removed u hu
  · refine ⟨P ++ [v.nextTransport], ?_, ?_⟩
    · rw [List.map_append]
      refine hring.insertTail ?_
      simp [hP, hborn]
    · intro u
      by_cases hut : u = v.nextTransport
      · subst u
        simp [View.register]
      · simp [View.register, hut, hP]
  · exact closed_register h.closed hP hring hborn rfl rfl

theorem Book.post (h : Book v) (ht : t ∈ v.unposted) :
    Book { v with unposted := v.unposted.erase t,
                  registration := v.registration ++ [(t, true)] } := by
  have hawait : (awaiting { v with
      unposted := v.unposted.erase t,
      registration := v.registration ++ [(t, true)] }).Perm v.awaiting := by
    simp only [awaiting, filter_append, map_append, filter_singleton, ← append_assoc]
    refine List.Perm.append_right _ (perm_append_comm.trans ?_)
    rw [← append_assoc]
    exact List.Perm.append_right _ (perm_cons_erase ht).symm
  exact { h with
    nodup := hawait.nodup_iff.mpr h.nodup
    pending := fun u hu => h.pending u (hawait.mem_iff.mp hu)
    removal := fun u hu => h.removal u (by simpa using hu) }

theorem Book.receive (h : Book v) {rest : List (TransportId × Bool)} (hm : v.main = .idle)
    (hr : v.registration = (t, true) :: rest) {threads : TransportId → ThreadName → ThreadPc}
    {counts : TransportId → Option ℤ}
    (hthreads : ∀ u n, threads u n ≠ .absent → v.thread u n ≠ .absent ∨ u = t)
    (hcounts : ∀ u, u ≠ t → counts u = v.refCount u) :
    Book { v with registration := rest, main := .linkTransport t, thread := threads,
                  refCount := counts } := by
  have hawait : (awaiting { v with
      registration := rest, main := .linkTransport t, thread := threads,
      refCount := counts }).Perm v.awaiting := by
    simp only [awaiting, hr, hm, MainPc.linking, filter_cons, if_true, map_cons,
      append_nil, append_assoc]
    exact List.Perm.append_left _ (perm_append_singleton _ _)
  have hl : v.main.linking = [] := by rw [hm]; rfl
  have ht : v.status t = .pending := h.pending t (by simp [awaiting, hr])
  refine { h with
    nodup := hawait.nodup_iff.mpr h.nodup
    pending := fun u hu => h.pending u (hawait.mem_iff.mp hu)
    thread := ?_
    removal := ?_
    ending := ?_
    freeing := ?_
    removed := ?_ }
  · intro u n hu
    rcases hthreads u n hu with hu | rfl
    · exact active_of_master ((h.thread u n hu).master hl)
    · exact ⟨by simp [ht], fun _ => rfl⟩
  · intro u hu
    exact active_of_master ((h.removal u (hr ▸ mem_cons_of_mem _ hu)).master hl)
  · intro u hu
    cases hu
  · intro u hu
    cases hu
  · intro u hu
    have hut : u ≠ t := by
      rintro rfl
      simp only [ht] at hu
      cases hu
    refine .inl ((hcounts u hut).trans ((h.removed u hu).resolve_right ?_))
    simp [hm]

theorem Book.link (h : Book v) (hm : v.main = .linkTransport t) :
    Book { v with links := (v.links.unlink (.node t)).insertTail .transportList (.node t)
                  status := update v.status t .listed
                  main := .idle } := by
  have hnodup := h.nodup
  simp only [awaiting, hm, MainPc.linking] at hnodup
  have ht : v.status t = .pending := h.pending t (by simp [awaiting, hm, MainPc.linking])
  have hactive : ∀ {u : TransportId}, v.Active u →
      update v.status t .listed u ≠ .unborn ∧
        update v.status t .listed u ≠ .pending := by
    intro u hu
    by_cases hut : u = t
    · subst u
      simp
    · rw [update_of_ne hut]
      refine ⟨hu.1, fun hp => hut ?_⟩
      simpa [hm, eq_comm] using hu.2 hp
  obtain ⟨P, hring, hP⟩ := h.pendingRing
  refine ⟨?_, ?_, ?_, ?_, ?_, ?_, ?_, ?_, ?_, ?_⟩
  · intro u hu
    have hut : u ≠ t := by
      rintro rfl
      simp [h.fresh u hu] at ht
    exact (update_of_ne hut _ _).trans (h.fresh u hu)
  · simpa [awaiting, MainPc.linking] using (nodup_append.mp hnodup).1
  · intro u hu
    have hu' : u ∈ v.unposted ++ (v.registration.filter (·.2)).map (·.1) := by
      simpa [awaiting, MainPc.linking] using hu
    have hut : u ≠ t := (nodup_append.mp hnodup).2.2 u hu' t (by simp)
    exact (update_of_ne hut _ _).trans
      (h.pending u (mem_append_left _ hu'))
  · exact fun u n hu => active_of_master (hactive (h.thread u n hu))
  · exact fun u hu => active_of_master (hactive (h.removal u hu))
  · intro u hu
    cases hu
  · intro u hu
    cases hu
  · intro u hu
    have hut : u ≠ t := by
      rintro rfl
      simp at hu
    simp only [update_of_ne hut] at hu
    exact .inl ((h.removed u hu).resolve_right (by simp [hm]))
  · refine ⟨P.erase t, pendingRing_link h.closed hP hring ((hP t).mpr ht), fun u => ?_⟩
    rw [(nodup_of_isRing hring).mem_erase_iff, hP]
    by_cases hut : u = t
    · subst u
      simp
    · simp [hut]
  · exact closed_link h.closed hP hring ht rfl rfl

theorem Book.unlinkAs (h : Book v) {s : Status} {pc : MainPc} (ht : v.Master (.node t))
    (hl : v.main.linking = []) (hf : ∀ t, v.main ≠ .freeTransport t) (hpc : pc.linking = [])
    (hend : ∀ u, pc.ending = some u → u = t)
    (hs : s = .unregistered ∧ (∀ u, pc ≠ .freeTransport u) ∨
      s = .removed ∧ pc = .freeTransport t) :
    Book { v.unlinkAs t s with main := pc } := by
  have hborn : s ≠ .unborn := by rcases hs with hs | hs <;> simp [hs.1]
  have hpend : s ≠ .pending := by rcases hs with hs | hs <;> simp [hs.1]
  have hmaster := master_unlinkAs (v := v) hborn hpend ht
  have hkeep : ∀ {u : TransportId}, v.Active u →
      View.Active { v.unlinkAs t s with main := pc } u :=
    fun {u} hu => active_of_master ((hmaster (.node u)).mpr (hu.master hl))
  obtain ⟨P, hring, hP⟩ := h.pendingRing
  refine ⟨?_, ?_, ?_, ?_, ?_, ?_, ?_, ?_, ?_, ?_⟩
  · intro u hu
    have hut : u ≠ t := by
      rintro rfl
      exact ht.1 (h.fresh u hu)
    exact (update_of_ne hut _ _).trans (h.fresh u hu)
  · have hn := h.nodup
    simp only [View.awaiting, hl] at hn
    simpa only [View.awaiting, View.unlinkAs, hpc] using hn
  · intro u hu
    have hp := h.pending u (by simpa only [View.awaiting, View.unlinkAs, hpc, hl] using hu)
    have hut : u ≠ t := by
      rintro rfl
      exact ht.2 hp
    exact (update_of_ne hut _ _).trans hp
  · exact fun u n hu => hkeep (h.thread u n hu)
  · exact fun u hu => hkeep (h.removal u hu)
  · intro u hu
    rw [hend u hu]
    exact hkeep (active_of_master ht)
  · intro u hu
    rcases hs with ⟨_, hs⟩ | ⟨rfl, hs⟩
    · exact absurd hu (hs u)
    · cases hs.symm.trans hu
      exact update_self ..
  · intro u hu
    by_cases hut : u = t
    · subst u
      rcases hs with ⟨rfl, _⟩ | ⟨_, hs⟩
      · simp [View.unlinkAs] at hu
      · exact .inr hs
    · simp only [View.unlinkAs, update_of_ne hut] at hu
      exact .inl ((h.removed u hu).resolve_right (hf u))
  · refine ⟨P, pendingRing_unlink h.closed hP hring ht, fun u => ?_⟩
    rw [hP]
    by_cases hut : u = t
    · subst u
      simp [View.unlinkAs, ht.2, hpend]
    · simp [View.unlinkAs, hut]
  · exact closed_unlinkAs h.closed hborn hpend ht

theorem Book.free (h : Book v) (hm : v.main = .freeTransport t) :
    Book { v with refCount := update v.refCount t none
                  adbPort := update v.adbPort t none
                  serial := update v.serial t none
                  main := .idle } := by
  have hl : v.main.linking = [] := by rw [hm]; rfl
  have hawait : awaiting { v with
      refCount := update v.refCount t none
      adbPort := update v.adbPort t none
      serial := update v.serial t none
      main := .idle } = v.awaiting := by
    simp only [awaiting, hl]
    rfl
  refine { h with
    nodup := hawait.symm ▸ h.nodup
    pending := fun u hu => h.pending u (hawait ▸ hu)
    thread := fun u n hu => active_of_master ((h.thread u n hu).master hl)
    removal := fun u hu => active_of_master ((h.removal u hu).master hl)
    ending := fun u hu => by cases hu
    freeing := fun u hu => by cases hu
    removed := fun u hu => .inl ?_ }
  by_cases hut : u = t
  · subst u
    exact update_self ..
  · refine (update_of_ne hut _ _).trans ((h.removed u hu).resolve_right ?_)
    simpa [hm, eq_comm] using hut

theorem book_move {v' : View} {k : Kind} (h : Book v) (hmove : Move View.Master v k v') :
    Book v' := by
  cases hmove with
  | quiet => exact h
  | refuse => exact { h with fresh := fun u hu => h.fresh u (Nat.le_of_succ_le hu) }
  | register type port serial => exact h.register type port serial
  | post ht => exact h.post ht
  | receive hm hr => exact h.receive hm hr (fun u n hu => .inl hu) (fun u _ => rfl)
  | @start t rest hm hr =>
    refine h.receive hm hr (fun u n hu => ?_) (fun u hu => update_of_ne hu _ _)
    by_cases hut : u = t
    · exact .inr hut
    · exact .inl (by simpa [update_of_ne hut] using hu)
  | link hm => exact h.link hm
  | @receiveRemoval t rest hm hr =>
    have ht : v.Active t := h.removal t (by simp [hr])
    have hm' : Book { v with main := .closeFd t } :=
      h.setMain (by rw [hm]; rfl) rfl (by simp [hm]) (by simp)
        (fun u hu => by cases hu; exact ht)
    have hreg : ∀ p ∈ rest, p ∈ v.registration := by
      intro p hp
      rw [hr]
      exact mem_cons_of_mem _ hp
    have hawait : v.registration.filter (·.2) = rest.filter (·.2) := by simp [hr]
    exact { hm' with
      nodup := by simpa only [awaiting, hawait] using hm'.nodup
      pending := fun u hu => hm'.pending u (by simpa only [awaiting, hawait] using hu)
      removal := fun u hu => hm'.removal u (hreg _ hu) }
  | @closeFd t hm =>
    have hm' : Book { v with main := .unlinkTransport t } :=
      h.setMain (by rw [hm]; rfl) rfl (by simp [hm]) (by simp)
        (fun u hu => h.ending u (by rw [hm]; exact hu))
    exact { hm' with }
  | @unlink t hm =>
    have hl : v.main.linking = [] := by rw [hm]; rfl
    exact h.unlinkAs ((h.ending t (by rw [hm]; rfl)).master hl) hl (by simp [hm]) rfl
      (fun u hu => by cases hu; rfl) (.inr ⟨rfl, rfl⟩)
  | free hm => exact h.free hm
  | disconnect hm ht hn =>
    exact h.unlinkAs ht (by rw [hm]; rfl) (by simp [hm]) rfl (fun u hu => by cases hu; rfl)
      (.inl ⟨rfl, by simp⟩)
  | kick hm | skipKick hm | callKick hm =>
    exact h.setMain (by rw [hm]; rfl) rfl (by simp [hm]) (by simp)
      (fun u hu => h.ending u (by rw [hm]; exact hu))
  | @unref t n hm hn =>
    have hl : v.main.linking = [] := by rw [hm]; rfl
    exact (h.unref (h.ending t (by rw [hm]; rfl)) hn).setMain hl rfl
      (fun u => by change v.main ≠ _; simp [hm]) (by simp) (fun u hu => by cases hu)
  | dangle hm hn =>
    exact h.setMain (by rw [hm]; rfl) rfl (by simp [hm]) (by simp) (fun u hu => by cases hu)
  | @drop t n hm ht hn htype hport =>
    have hunlink : Book { v.unlinkAs t .unregistered with main := v.main } :=
      h.unlinkAs ht (by rw [hm]; rfl) (by simp [hm]) (by rw [hm]; rfl)
        (fun u hu => by rw [hm] at hu; cases hu) (.inl ⟨rfl, by simp [hm]⟩)
    exact Book.unref hunlink (active_of_master
      ((master_unlinkAs (by simp) (by simp) ht (.node t)).mpr ht)) hn
  | @threadStep t m pc hm hf hpc hpf => exact h.setThread (h.thread t m hm) m pc
  | @threadUnref t m n hm hn =>
    have ht : v.Active t := h.thread t m (by simp [hm])
    exact (h.unref ht hn).setThread ht m .finished

end Moves

theorem book_init : Book World.init.view where
  fresh _ _ := rfl
  nodup := nodup_nil
  pending u hu := absurd hu not_mem_nil
  thread u n hu := absurd rfl hu
  removal u hu := absurd hu not_mem_nil
  ending u hu := by cases hu
  freeing u hu := by cases hu
  removed u hu := by cases hu
  pendingRing := ⟨[], isRing_nil rfl rfl, fun u => by simp [World.init, World.view]⟩
  closed r hr := ⟨hr, hr⟩

theorem book_step {w w' : World} {a : Action} (h : Book w.view) (hs : step w a = some w') :
    Book w'.view :=
  invariant_of_moves (K := fun _ _ => True) (visits_master fun _ h => h.closed)
    (fun _ _ _ hv _ hmove => book_move hv hmove) h hs trivial (fun _ _ _ _ _ => trivial)

end PaxAdb.Lifecycle
