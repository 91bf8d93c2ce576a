import PaxAdb.Decimal
import PaxAdb.Runs
import PaxAdb.SocketOps
import PaxAdb.UsbScan
import PaxAdb.UsbTransfer

/-!
# The list of USB handles

`device_poll_thread` scans `/dev/bus/usb` once a second. It marks the handles whose nodes it finds,
adds a handle for a new node, and kicks the handles that were not marked. Meanwhile other threads
kick handles and close them. What the thread does under `usb_lock` is one step, so that the steps of
the others come between them in every order.
-/

namespace PaxAdb.Usb

open Runs List

/-- A `usb_handle` on `handle_list`. -/
structure ListedHandle where
  fname : List Byte
  epIn : Byte
  epOut : Byte
  zeroMask : ℕ
  mark : Bool
  handle : Handle
  deriving DecidableEq, Repr

/-- A node that `readdir` finds, and what its descriptors are. -/
structure Entry where
  devname : List Byte
  scan : End

inductive Thread where
  | sleeping
  | scanning (nodes : List Entry)
  /-- `register_device` is called for a node that is not known -/
  | checking (fname : List Byte) (d : Device) (nodes : List Entry)
  | opening (fname : List Byte) (d : Device) (nodes : List Entry)

structure HandleList where
  handles : List ListedHandle
  thread : Thread
  /-- the names of the nodes this scan has come by -/
  seen : List (List Byte)

def HandleList.init : HandleList := ⟨[], .sleeping, []⟩

def HandleList.names (u : HandleList) : List (List Byte) := u.handles.map ListedHandle.fname

def badname (name : List Byte) : Bool := !name.all Decimal.isDigit

/-- `"%s/%s"` in a buffer of 32 bytes -/
def pathIn (dir name : List Byte) : List Byte := (dir ++ 0x2f :: name).take 31

/-- The nodes below `base` in the order of the two loops over the directories. -/
def entries (base : List Byte) (buses : List (List Byte × List (List Byte × End))) : List Entry :=
  (buses.filter fun bus => !badname bus.1).flatMap fun bus =>
    (bus.2.filter fun dev => !badname dev.1).map fun dev =>
      ⟨pathIn (pathIn base bus.1) dev.1, dev.2⟩

def knownDevice (devname : List Byte) : List ListedHandle → Option (List ListedHandle)
  | [] => none
  | h :: hs =>
      if h.fname = devname then some ({ h with mark := true } :: hs)
      else (knownDevice devname hs).map (h :: ·)

def ListedHandle.kick (h : ListedHandle) : ListedHandle := { h with handle := h.handle.usbKick }

def kickDisconnectedDevices (hs : List ListedHandle) : List ListedHandle :=
  hs.map fun h => if h.mark then { h with mark := false } else h.kick

/-- How `register_device` gets its descriptor. -/
inductive Opening where
  | readWrite (desc : ℤ) (claimed : Bool)
  | readOnly (desc : ℤ)
  | failed

def Opening.handle : Opening → Option Handle
  | .readWrite desc true => some ⟨desc, true, false, ⟨0, 0⟩, false⟩
  | .readWrite _ false => none
  | .readOnly desc => some ⟨desc, false, false, ⟨0, 0⟩, false⟩
  | .failed => none

inductive PollAction where
  | wake (buses : List (List Byte × List (List Byte × End)))
  | next
  | check
  | open_ (result : Opening)
  | pass
  /-- `usb_kick` and `usb_close` by other threads, for the handle at this place of the list -/
  | kick (i : ℕ)
  | close (i : ℕ)

namespace HandleList

def next (e : Entry) (nodes : List Entry) (u : HandleList) : HandleList :=
  match knownDevice e.devname u.handles with
  | some hs => ⟨hs, .scanning nodes, u.seen ++ [e.devname]⟩
  | none =>
      match e.scan with
      | .nothing => ⟨u.handles, .scanning nodes, u.seen ++ [e.devname]⟩
      | .registered d => ⟨u.handles, .checking e.devname d nodes, u.seen ++ [e.devname]⟩

/-- The new handle is marked, so that this scan does not kick it. -/
def add (fname : List Byte) (d : Device) (nodes : List Entry) (result : Opening) (u : HandleList) :
    HandleList :=
  match result.handle with
  | none => { u with thread := .scanning nodes }
  | some h => { u with
      handles := u.handles ++ [⟨fname, d.epIn, d.epOut, d.zeroMask, true, h⟩]
      thread := .scanning nodes }

def step (u : HandleList) (a : PollAction) : Option HandleList :=
  match u.thread, a with
  | .sleeping, .wake buses =>
      some ⟨u.handles, .scanning (entries (Sockets.text "/dev/bus/usb") buses), []⟩
  | .scanning (e :: nodes), .next => some (u.next e nodes)
  | .checking fname d nodes, .check =>
      some { u with thread := if fname ∈ u.names then .scanning nodes else .opening fname d nodes }
  | .opening fname d nodes, .open_ result => some (u.add fname d nodes result)
  | .scanning [], .pass => some ⟨kickDisconnectedDevices u.handles, .sleeping, u.seen⟩
  | _, .kick i => (u.handles[i]?).map fun h => { u with handles := u.handles.set i h.kick }
  | _, .close i => some { u with handles := u.handles.eraseIdx i }
  | _, _ => none

end HandleList

def Thread.Adding (fname : List Byte) : Thread → Prop
  | .checking f _ _ | .opening f _ _ => f = fname
  | _ => False

structure HandleList.InOrder (u : HandleList) : Prop where
  names : u.names.Nodup
  adding : ∀ fname, u.thread.Adding fname → fname ∉ u.names ∧ fname ∈ u.seen
  marks : ∀ h ∈ u.handles, h.mark = true ↔ u.thread ≠ .sleeping ∧ h.fname ∈ u.seen

section Steps

open HandleList ListedHandle

variable {u u' : HandleList} {hs : List ListedHandle}

theorem map_fname {f : ListedHandle → ListedHandle} (h : ∀ x, (f x).fname = x.fname) :
    (hs.map f).map fname = hs.map fname := by
  rw [map_map, show fname ∘ f = fname from funext h]

def ListedHandle.found (devname : List Byte) (h : ListedHandle) : ListedHandle :=
  if h.fname = devname then { h with mark := true } else h

theorem found_spec (devname : List Byte) (h : ListedHandle) : (h.found devname).fname = h.fname ∧
    ((h.found devname).mark = true ↔ h.mark = true ∨ h.fname = devname) := by
  unfold found
  split <;> simp_all

/-- With different names on the list, the loop marks the one handle it is about. -/
theorem knownDevice_cases (devname : List Byte) (hnames : (hs.map fname).Nodup) :
    knownDevice devname hs = none ∧ devname ∉ hs.map fname ∨
    knownDevice devname hs = some (hs.map (found devname)) := by
  induction hs with
  | nil => exact Or.inl ⟨rfl, not_mem_nil⟩
  | cons h hs ih =>
    obtain ⟨hnot, hnames⟩ := nodup_cons.mp hnames
    by_cases hname : h.fname = devname
    · have hrest : hs.map (found devname) = hs := by
        refine (map_congr_left fun x hx => if_neg fun he => hnot ?_).trans (map_id' hs)
        rw [hname, ← he]
        exact mem_map_of_mem hx
      refine Or.inr ?_
      rw [knownDevice, if_pos hname, map_cons, hrest, found, if_pos hname]
    · rw [knownDevice, if_neg hname]
      rcases ih hnames with ⟨hnone, hmem⟩ | hsome
      · exact Or.inl ⟨by rw [hnone]; rfl, by simp [Ne.symm hname, hmem]⟩
      · refine Or.inr ?_
        rw [hsome, map_cons, found, if_neg hname]
        rfl

namespace HandleList.InOrder

theorem init : init.InOrder :=
  ⟨nodup_nil, fun _ h => h.elim, by simp [HandleList.init]⟩

theorem others (h : u.InOrder) (ht : u'.thread = u.thread) (hseen : u'.seen = u.seen)
    (hnames : u'.names.Sublist u.names)
    (hmarks : ∀ x ∈ u'.handles, ∃ y ∈ u.handles, x.fname = y.fname ∧ x.mark = y.mark) :
    u'.InOrder where
  names := h.names.sublist hnames
  adding fname hf := by
    obtain ⟨hnot, hmem⟩ := h.adding fname (ht ▸ hf)
    exact ⟨fun hm => hnot (hnames.mem hm), hseen ▸ hmem⟩
  marks x hx := by
    obtain ⟨y, hy, hname, hmark⟩ := hmarks x hx
    rw [hname, hmark, ht, hseen]
    exact h.marks y hy

theorem next {e : Entry} {nodes : List Entry} (h : u.InOrder)
    (ht : u.thread = .scanning (e :: nodes)) : (u.next e nodes).InOrder := by
  have hmarks : ∀ x ∈ u.handles, x.mark = true ↔ x.fname ∈ u.seen := by
    simpa [ht] using h.marks
  rw [HandleList.next]
  rcases knownDevice_cases e.devname h.names with ⟨hnone, hmem⟩ | hsome
  · have hsame : ∀ x ∈ u.handles, x.mark = true ↔ x.fname ∈ u.seen ++ [e.devname] := by
      intro x hx
      have hne : x.fname ≠ e.devname := fun he => hmem (he ▸ mem_map_of_mem hx)
      simp [hmarks x hx, hne]
    rw [hnone]
    cases e.scan with
    | nothing => exact ⟨h.names, fun _ hf => hf.elim, by simpa using hsame⟩
    | registered d =>
      refine ⟨h.names, ?_, by simpa using hsame⟩
      rintro _ rfl
      exact ⟨hmem, by simp⟩
  · rw [hsome]
    refine ⟨?_, fun _ hf => hf.elim, fun x hx => ?_⟩
    · rw [HandleList.names, map_fname fun x => (found_spec e.devname x).1]
      exact h.names
    · obtain ⟨y, hy, rfl⟩ := mem_map.mp hx
      obtain ⟨hname, hmark⟩ := found_spec e.devname y
      simp [hmark, hname, hmarks y hy]

theorem add {fname : List Byte} {d : Device} {nodes : List Entry} (h : u.InOrder)
    (ht : u.thread = .opening fname d nodes) (result : Opening) :
    (u.add fname d nodes result).InOrder := by
  have hadd := h.adding fname (by rw [ht]; rfl)
  have hmarks : ∀ x ∈ u.handles, x.mark = true ↔ x.fname ∈ u.seen := by
    simpa [ht] using h.marks
  rw [HandleList.add]
  cases result.handle with
  | none => exact ⟨h.names, fun _ hf => hf.elim, by simpa using hmarks⟩
  | some y =>
    refine ⟨?_, fun _ hf => hf.elim, fun x hx => ?_⟩
    · rw [HandleList.names, map_append]
      exact h.names.append (nodup_singleton _) (by simpa using hadd.1)
    · rcases mem_append.mp hx with hx | hx
      · simpa using hmarks x hx
      · cases mem_singleton.mp hx
        simpa using hadd.2

theorem step {a : PollAction} (h : u.InOrder) (hs : u.step a = some u') : u'.InOrder := by
  unfold HandleList.step at hs
  split at hs
  next ht =>
    cases hs
    refine ⟨h.names, fun _ hf => hf.elim, fun x hx => ?_⟩
    have hmark := h.marks x hx
    simp_all
  next ht =>
    cases hs
    exact h.next ht
  next fname d nodes ht =>
    cases hs
    have hadd := h.adding fname (by rw [ht]; rfl)
    rw [if_neg hadd.1]
    refine ⟨h.names, ?_, by simpa [ht] using h.marks⟩
    rintro _ rfl
    exact hadd
  next ht =>
    cases hs
    exact h.add ht _
  next ht =>
    cases hs
    refine ⟨?_, fun _ hf => hf.elim, fun x hx => ?_⟩
    · rw [HandleList.names, kickDisconnectedDevices, map_fname fun x => by split <;> rfl]
      exact h.names
    · obtain ⟨y, hy, rfl⟩ := List.mem_map.mp hx
      by_cases hmark : y.mark = true <;> simp [hmark, ListedHandle.kick]
  next i =>
    obtain ⟨y, hy, rfl⟩ := Option.map_eq_some_iff.mp hs
    obtain ⟨hlt, rfl⟩ := List.getElem?_eq_some_iff.mp hy
    have hsame : (u.handles.set i (u.handles[i]).kick).map ListedHandle.fname = u.names := by
      refine List.ext_getElem (by simp [HandleList.names]) fun j _ _ => ?_
      by_cases hj : i = j <;> simp [HandleList.names, hj, ListedHandle.kick]
    refine h.others rfl rfl (hsame ▸ List.Sublist.refl _) fun x hx => ?_
    rcases List.mem_or_eq_of_mem_set hx with hx | rfl
    · exact ⟨x, hx, rfl, rfl⟩
    · exact ⟨_, List.getElem_mem hlt, rfl, rfl⟩
  next i =>
    cases hs
    have hsub := List.eraseIdx_sublist u.handles i
    exact h.others rfl rfl (hsub.map _) fun x hx => ⟨x, hsub.mem hx, rfl, rfl⟩
  next => cases hs

end HandleList.InOrder

/-- In every run the nodes of the handles are different ones, and `register_device` finds none of
them on the list again. When a scan is over, the handles of nodes that it did not find are kicked,
and no others. -/
theorem scan_kicks_lost (hrun : Run step (fun _ _ => True) .init u) :
    u.names.Nodup ∧ (∀ fname d nodes, u.thread = .checking fname d nodes → fname ∉ u.names) ∧
    (step u .pass = some u' → u'.handles = u.handles.map fun h =>
      if h.fname ∈ u.seen then { h with mark := false } else h.kick) := by
  have h : u.InOrder := hrun.invariant .init fun _ _ _ h _ hs => h.step hs
  refine ⟨h.names, fun fname d nodes ht => (h.adding fname (by rw [ht]; rfl)).1, fun hs => ?_⟩
  have ht : u.thread = .scanning [] := by
    unfold step at hs
    split at hs <;> first | assumption | simp_all
  simp only [step, ht, Option.some.injEq] at hs
  rw [← hs]
  refine map_congr_left fun x hx => if_congr ?_ rfl rfl
  simpa [ht] using h.marks x hx

/-- The nodes `001/002` and `001/003` are found and both get a handle; the second scan finds only
the first of them. -/
def unplugRun : List PollAction :=
  let node (n : Byte) : List Byte × End := ([0x30, 0x30, n], .registered ⟨0x81, 1, 0, 3, 511⟩)
  [.wake [([0x30, 0x30, 0x31], [node 0x32, node 0x33])], .next, .check,
    .open_ (.readWrite 5 true), .next, .check, .open_ (.readOnly 6), .pass,
    .wake [([0x30, 0x30, 0x31], [node 0x32])], .next]

theorem scan_kicks_unplugged : ∃ u u', Run step (fun _ _ => True) .init u ∧
    step u .pass = some u' ∧
    u'.handles.map (fun h => (h.fname, h.handle.dead)) =
      [(Sockets.text "/dev/bus/usb/001/002", false), (Sockets.text "/dev/bus/usb/001/003", true)] ∧
    u'.handles = u.handles.map fun h =>
      if h.fname ∈ u.seen then { h with mark := false } else h.kick := by
  have hexec : ((exec step .init unplugRun).bind fun u => (step u .pass).map
      fun u' => u'.handles.map fun h => (h.fname, h.handle.dead)) =
      some [(Sockets.text "/dev/bus/usb/001/002", false),
        (Sockets.text "/dev/bus/usb/001/003", true)] := by decide +kernel
  obtain ⟨u, hu, hpass⟩ := Option.bind_eq_some_iff.mp hexec
  obtain ⟨u', hu', heq⟩ := Option.map_eq_some_iff.mp hpass
  have hrun : Run step (fun _ _ => True) .init u :=
    run_of_exec (fun _ _ _ => trivial) hu
  exact ⟨u, u', hrun, hu', heq, (scan_kicks_lost hrun).2.2 hu'⟩

end Steps

end PaxAdb.Usb
