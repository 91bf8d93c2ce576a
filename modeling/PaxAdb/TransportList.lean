import PaxAdb.LifecycleBook

/-!
# Integrity of the transport list

`transport_list` should always be a ring of exactly the transports that have been linked to it and
have been neither unregistered nor removed. `unregister_transport` and
`unregister_all_tcp_transports` leave the links of the transport they unlink as they were, and the
removal message unlinks it a second time through them. The list is preserved along every run in
which such a second unlinking finds the two old neighbours as the first one left them, or off the
list; it is lost when a neighbour has been replaced or freed in between.
-/

namespace PaxAdb.Lifecycle

open Ring Runs World Function List View

def View.OnList (v : View) : Ref → Prop
  | .pendingList => False
  | .transportList => True
  | .node t => v.status t = .listed

/-- `transport_list` is a well-formed ring of exactly the transports that belong on it. -/
def View.Integrity (v : View) : Prop :=
  ∃ L : List TransportId, IsRing v.links .transportList (L.map .node) ∧
    ∀ t, t ∈ L ↔ v.status t = .listed

def World.Allocated (w : World) : Ref → Prop
  | .node t => (w.transport t).isSome
  | _ => True

/-- The old links of `t` lead to memory that is still allocated, and writing `t`'s neighbours into
each other changes no link of a node that belongs on the list. -/
def StaleLinksHarmless (w : World) (t : TransportId) : Prop :=
  w.Allocated (w.links.next (.node t)) ∧ w.Allocated (w.links.prev (.node t)) ∧
  (w.view.OnList (w.links.next (.node t)) →
    w.links.prev (w.links.next (.node t)) = w.links.prev (.node t)) ∧
  (w.view.OnList (w.links.prev (.node t)) →
    w.links.next (w.links.prev (.node t)) = w.links.next (.node t))

/-- The condition on a step: when the removal message unlinks a transport that has been unlinked
before, its old links are harmless. -/
def UnlinkSafe (w : World) (a : Action) : Prop :=
  ∀ t, a = .unlinkTransport → w.main = .unlinkTransport t →
    w.status t = .listed ∨ StaleLinksHarmless w t

def View.RemovalSafe (v : View) (k : Kind) : Prop :=
  ∀ t, k = .removal t → v.status t = .listed ∨
    (v.OnList (v.links.next (.node t)) →
      v.links.prev (v.links.next (.node t)) = v.links.prev (.node t)) ∧
    (v.OnList (v.links.prev (.node t)) →
      v.links.next (v.links.prev (.node t)) = v.links.next (.node t))

section Ring

variable {v : View} {t : TransportId} {L : List TransportId}

theorem master_of_onList {r : Ref} (h : v.OnList r) : v.Master r := by
  cases r with
  | pendingList => exact h
  | transportList => trivial
  | node t => exact ⟨by rw [h]; simp, by rw [h]; simp⟩

theorem onList_iff (hL : ∀ t, t ∈ L ↔ v.status t = .listed) {r : Ref} :
    v.OnList r ↔ r ∈ Ref.transportList :: L.map .node := by
  cases r with
  | pendingList | transportList => simp [View.OnList]
  | node t => simp [View.OnList, hL]

theorem integrity_unlink (h : v.Integrity) (ht : v.status t = .listed) {s : Status}
    (hs : s ≠ .listed) : (v.unlinkAs t s).Integrity := by
  obtain ⟨L, hring, hL⟩ := h
  refine ⟨L.erase t, isRing_unlink_node hring ((hL t).mpr ht), fun u => ?_⟩
  rw [(nodup_of_isRing hring).mem_erase_iff, hL]
  by_cases hu : u = t
  · subst u
    simp [unlinkAs, hs]
  · simp [unlinkAs, hu]

theorem integrity_unlink_again (h : v.Integrity) (ht : v.status t ≠ .listed) {s : Status}
    (hs : s ≠ .listed)
    (hnext : v.OnList (v.links.next (.node t)) →
      v.links.prev (v.links.next (.node t)) = v.links.prev (.node t))
    (hprev : v.OnList (v.links.prev (.node t)) →
      v.links.next (v.links.prev (.node t)) = v.links.next (.node t)) :
    (v.unlinkAs t s).Integrity := by
  obtain ⟨L, hring, hL⟩ := h
  refine ⟨L, hring.frame (fun r hr => ?_) (fun r hr => ?_), fun u => ?_⟩
  · have hon := (onList_iff hL).mpr hr
    simp only [unlinkAs, Links.unlink_eq]
    by_cases he : r = v.links.prev (.node t)
    · subst r
      rw [update_self, hprev hon]
    · rw [update_of_ne he]
  · have hon := (onList_iff hL).mpr hr
    simp only [unlinkAs, Links.unlink_eq]
    by_cases he : r = v.links.next (.node t)
    · subst r
      rw [update_self, hnext hon]
    · rw [update_of_ne he]
  · rw [hL]
    by_cases hu : u = t
    · subst u
      simp [unlinkAs, hs, ht]
    · simp [unlinkAs, hu]

theorem integrity_register (hb : Book v) (h : v.Integrity) (type : TransportType) (port : ℕ)
    (serial : Option (List Byte)) : (v.register type port serial).Integrity := by
  obtain ⟨L, hring, hL⟩ := h
  obtain ⟨P, hpending, hP⟩ := hb.pendingRing
  have hborn : v.status v.nextTransport = .unborn := hb.fresh _ le_rfl
  have hkeep := fun r hr => insertTail_pending_keeps hP hpending hborn
    (master_of_onList ((onList_iff hL).mpr hr) : v.Master r)
  refine ⟨L, hring.frame (fun r hr => (hkeep r hr).1) (fun r hr => (hkeep r hr).2), fun u => ?_⟩
  rw [hL]
  by_cases hu : u = v.nextTransport
  · subst u
    simp [register, hborn]
  · simp [register, hu]

theorem integrity_link (hb : Book v) (h : v.Integrity) (ht : v.status t = .pending) :
    View.Integrity { v with
      links := (v.links.unlink (.node t)).insertTail .transportList (.node t)
      status := update v.status t .listed
      main := .idle } := by
  obtain ⟨L, hring, hL⟩ := h
  obtain ⟨P, hpending, hP⟩ := hb.pendingRing
  have hkeep := fun r hr => unlink_pending_keeps hP hpending ht
    (master_of_onList ((onList_iff hL).mpr hr) : v.Master r)
  have hring' : IsRing (v.links.unlink (.node t)) .transportList (L.map .node) :=
    hring.frame (fun r hr => (hkeep r hr).1) (fun r hr => (hkeep r hr).2)
  refine ⟨L ++ [t], ?_, fun u => ?_⟩
  · rw [map_append]
    refine hring'.insertTail ?_
    simp [hL, ht]
  · by_cases hu : u = t
    · subst u
      simp
    · simp [hu, hL]

end Ring

theorem visits_onList : Visits (fun v => Book v ∧ v.Integrity) View.OnList where
  first := by
    rintro v ⟨_, L, hring, hL⟩
    exact (onList_iff hL).mpr hring.next_head_mem
  next := by
    rintro v t ⟨_, L, hring, hL⟩ ht
    exact (onList_iff hL).mpr (hring.next_mem (mem_map_of_mem ((hL t).mpr ht)))
  drop := by
    rintro v t v' ⟨_, L, hring, hL⟩ hidle ht hmove
    have htL : Ref.node t ∈ L.map Ref.node := mem_map_of_mem ((hL t).mpr ht)
    have hon : v.OnList (v.links.next (.node t)) := (onList_iff hL).mpr (hring.next_mem htL)
    have hne := hring.next_ne htL
    cases hmove with
    | unref hm | dangle hm => exact absurd (hidle.symm.trans hm) (by simp)
    | drop hm _ hn htype hport =>
      cases hr : v.links.next (.node t) with
      | pendingList =>
        rw [hr] at hon
        exact False.elim hon
      | transportList => trivial
      | node u =>
        rw [hr] at hon hne
        have hut : u ≠ t := fun he => hne (he ▸ rfl)
        exact (update_of_ne hut _ _).trans hon
  pending _ _ := id

theorem integrity_move {v v' : View} {k : Kind} (hb : Book v) (h : v.Integrity)
    (hok : v.RemovalSafe k) (hmove : Move View.OnList v k v') : v'.Integrity := by
  cases hmove with
  | register type port serial => exact integrity_register hb h type port serial
  | @link t hm =>
    exact integrity_link hb h (hb.pending t (by simp [awaiting, hm, MainPc.linking]))
  | @unlink t hm =>
    rcases em (v.status t = .listed) with ht | ht
    · exact integrity_unlink h ht (by simp)
    · obtain ⟨hnext, hprev⟩ := (hok t rfl).resolve_left ht
      exact integrity_unlink_again h ht (by simp) hnext hprev
  | disconnect hm ht | drop hm ht => exact integrity_unlink h ht (by simp)
  | quiet | refuse | post | receive | start | receiveRemoval | closeFd | free | kick | skipKick
  | callKick | unref | dangle | threadStep | threadUnref => exact h

theorem removalSafe_of_unlinkSafe {w : World} {a : Action} (h : UnlinkSafe w a) :
    w.view.RemovalSafe (a.kind w) := by
  intro t hk
  unfold Action.kind at hk
  split at hk <;> cases hk
  next hm => exact (h t rfl hm).imp_right fun hs => ⟨hs.2.2.1, hs.2.2.2⟩

theorem integrity_step {w w' : World} {a : Action} (h : Book w.view ∧ w.view.Integrity)
    (hok : UnlinkSafe w a) (hs : step w a = some w') : Book w'.view ∧ w'.view.Integrity :=
  invariant_of_moves (K := View.RemovalSafe) visits_onList
    (fun _ _ _ hI hk hmove =>
      ⟨book_move hI.1 (hmove.mono fun _ => master_of_onList), integrity_move hI.1 hI.2 hk hmove⟩)
    h hs (removalSafe_of_unlinkSafe hok) (fun _ _ _ _ _ _ hk => by cases hk)

theorem unlinkSafe_of_ne {a : Action} (ha : a ≠ .unlinkTransport) (w : World) : UnlinkSafe w a :=
  fun _ he => absurd he ha

/-- Along every run whose second unlinkings are harmless, `transport_list` stays a well-formed
circular list of exactly the transports that are registered, neither unregistered nor removed. -/
theorem transportList_integrity_of_unlinkSafe {w : World} (h : Run step UnlinkSafe init w) :
    w.view.Integrity := by
  have hinit : Book init.view ∧ init.view.Integrity :=
    ⟨book_init, [], isRing_nil rfl rfl, fun t => by simp [init, view]⟩
  exact (h.invariant (I := fun w => Book w.view ∧ w.view.Integrity) hinit
    (fun _ _ _ hI hok hs => integrity_step hI hok hs)).2

/-- A loop over a list gets to its end: there are at most as many transports as have been made. -/
theorem listed_eq {w : World} {head : Ref} {L : List TransportId} (h : Book w.view)
    (hring : IsRing w.links head (L.map .node)) (hborn : ∀ t ∈ L, w.status t ≠ .unborn) :
    w.listed head = L.map .node := by
  have hlt : ∀ t ∈ L, t ∈ range w.nextTransport := by
    intro t ht
    rw [mem_range]
    by_contra hle
    exact hborn t ht (h.fresh t (not_lt.mp hle))
  have hlen := (subperm_of_subset (nodup_of_isRing hring) hlt).length_le
  rw [length_range] at hlen
  refine hring.walk_eq ?_
  rw [length_map]
  exact Nat.lt_succ_of_le hlen

/-- The first of two devices goes away by itself and its removal message is processed. -/
theorem transportList_integrity_device_lost :
    ∃ w, Run step UnlinkSafe init w ∧ w.status 0 = .removed ∧ w.status 1 = .listed ∧
      w.view.Integrity := by
  have hlost : (exec step init (connectRun 3 [65] 0 ++ connectRun 4 [66] 1 ++
      lostRun 0 ++ [.receiveRemoval, .closeFd])).bind (fun w₁ =>
        (step w₁ .unlinkTransport).map
          (fun w₂ => (w₁.main, w₁.status 0, w₂.status 0, w₂.status 1))) =
      some (.unlinkTransport 0, .listed, .removed, .listed) := by decide +kernel
  obtain ⟨w₁, hexec, hnext⟩ := Option.bind_eq_some_iff.mp hlost
  obtain ⟨w₂, hs, hw⟩ := Option.map_eq_some_iff.mp hnext
  simp only [Prod.mk.injEq] at hw
  obtain ⟨hm, hst, h0, h1⟩ := hw
  have hrun : Run step UnlinkSafe init w₂ := by
    refine (run_of_exec (fun a ha w => unlinkSafe_of_ne ?_ w) hexec).snoc ?_ hs
    · rintro rfl
      simp [lostRun, connectRun] at ha
    · intro t _ ht
      cases hm.symm.trans ht
      exact Or.inl hst
  exact ⟨w₂, hrun, h0, h1, transportList_integrity_of_unlinkSafe hrun⟩

/-- Three devices are connected, the second and then the third are disconnected, and the removal
message of the second is processed. -/
def relinkingRun : List Action :=
  connectRun 3 [65] 0 ++ connectRun 4 [66] 1 ++ connectRun 5 [67] 2 ++ disconnectRun [66] ++
    disconnectRun [67] ++
    [.threadLeave 1 .output, .threadKick 1 .output, .threadUnref 1 .output, .receiveRemoval,
      .closeFd, .unlinkTransport]

/-- The removal of the second device links the third, which is unregistered, into the list
again. -/
theorem transportList_relinks_unregistered :
    ∃ w, exec step init relinkingRun = some w ∧ w.status 2 = .unregistered ∧
      ¬ w.view.Integrity := by
  have hrun : (exec step init relinkingRun).map
      (fun w => (w.links.next .transportList, w.links.next (.node 0), w.status 2)) =
      some (.node 0, .node 2, .unregistered) := by decide +kernel
  obtain ⟨w, hexec, hw⟩ := Option.map_eq_some_iff.mp hrun
  obtain ⟨hhead, h0, h2⟩ : w.view.links.next .transportList = .node 0 ∧
      w.view.links.next (.node 0) = .node 2 ∧ w.status 2 = .unregistered := by
    simpa [view] using hw
  refine ⟨w, hexec, h2, ?_⟩
  rintro ⟨L, hring, hL⟩
  have hmem0 : 0 ∈ L := by simpa [hhead] using hring.next_head_mem
  have hmem2 : 2 ∈ L := by
    simpa [h0] using hring.next_mem (mem_map_of_mem hmem0)
  have hlisted : w.status 2 = .listed := (hL 2).mp hmem2
  rw [h2] at hlisted
  cases hlisted

end PaxAdb.Lifecycle
