import Mathlib.Data.List.TakeWhile
import PaxAdb.SyncPush

/-!
# Pushing a directory

`copy_local_dir_remote` walks a local directory tree, lists the files it finds and sends them one by
one. A `Listing` is a directory as `readdir` shows it, together with the outcomes of the calls that
the walk makes on its entries.
-/

namespace PaxAdb.Sync

open List

def PATH_MAX : ℕ := 4096

section Tree

/-- An entry of a local directory, and which of the calls on it succeed: the two calls of `lstat`,
and `opendir` if it is a directory. -/
structure Object where
  name : Path
  mode : UInt32
  time : UInt32
  size : UInt32
  lstat : Bool
  lstatAgain : Bool
  opens : Bool
  deriving DecidableEq, Repr

namespace Object

variable (o : Object)

def IsDots : Prop := o.name = text "." ∨ o.name = text ".."

instance : Decidable o.IsDots := inferInstanceAs (Decidable (_ ∨ _))

def Stops : Prop := ¬o.IsDots ∧ o.lstat = true ∧ ¬S_ISDIR o.mode ∧ o.lstatAgain = false

instance : Decidable o.Stops := inferInstanceAs (Decidable (_ ∧ _))

def Listed : Prop :=
  ¬o.IsDots ∧ o.lstat = true ∧ ¬S_ISDIR o.mode ∧ o.lstatAgain = true ∧
    (S_ISREG o.mode ∨ S_ISLNK o.mode)

instance : Decidable o.Listed := inferInstanceAs (Decidable (_ ∧ _))

def Noted : Prop := ¬o.IsDots ∧ o.lstat = true ∧ S_ISDIR o.mode

instance : Decidable o.Noted := inferInstanceAs (Decidable (_ ∧ _))

def Entered : Prop := o.Noted ∧ o.opens = true

instance : Decidable o.Entered := inferInstanceAs (Decidable (_ ∧ _))

variable {o}

theorem Noted.not_stops (h : o.Noted) : ¬o.Stops := fun hs => hs.2.2.1 h.2.2

theorem Noted.not_listed (h : o.Noted) : ¬o.Listed := fun hl => hl.2.2.1 h.2.2

theorem Listed.not_noted (h : o.Listed) : ¬o.Noted := fun hn => h.2.2.1 hn.2.2

theorem Listed.not_stops (h : o.Listed) : ¬o.Stops := by
  intro hs
  cases h.2.2.2.1.symm.trans hs.2.2.2

variable (o)

def tree (below : List (Path × UInt32)) : List (Path × UInt32) :=
  if o.IsDots then []
  else (o.name, o.mode) ::
    if S_ISDIR o.mode then below.map fun x => (o.name ++ [0x2f] ++ x.1, x.2) else []

end Object

/-- The entries of a directory in the order of `readdir`; `below` are those of the entry, if it is a
directory. -/
inductive Listing where
  | nil
  /-- `readdir` fails and does not show the rest -/
  | fails (rest : Listing)
  | entry (o : Object) (below rest : Listing)

namespace Listing

def objects : Listing → List (Path × UInt32)
  | nil => []
  | fails rest => rest.objects
  | entry o below rest => o.tree below.objects ++ rest.objects

def names : Listing → List Path
  | nil => []
  | fails rest => rest.names
  | entry o _ rest => o.name :: rest.names

/-- In each directory the names are distinct, and there is no slash in them. -/
def WellFormed : Listing → Prop
  | nil => True
  | fails rest => rest.WellFormed
  | entry o below rest =>
      0x2f ∉ o.name ∧ o.name ∉ rest.names ∧ below.WellFormed ∧ rest.WellFormed

instance decWellFormed : (l : Listing) → Decidable l.WellFormed
  | nil => .isTrue trivial
  | fails rest => decWellFormed rest
  | entry _ below rest =>
      have := decWellFormed below
      have := decWellFormed rest
      inferInstanceAs (Decidable (_ ∧ _ ∧ _ ∧ _))

def depth : Listing → ℕ
  | nil => 0
  | fails rest => rest.depth
  | entry _ below rest => max (below.depth + 1) rest.depth

def aborts : Listing → Bool
  | nil => false
  | fails _ => false
  | entry o _ rest => if o.Stops then true else rest.aborts

/-- The walk finds the file: every call on the directories above it and on itself succeeds, and the
walk of none of these directories ends before its time. -/
inductive Reached : Listing → Path → Prop
  | file {o : Object} {below rest : Listing} (h : o.Listed) : Reached (entry o below rest) o.name
  | inside {o : Object} {below rest : Listing} {rel : Path} (h : o.Entered)
      (hrest : rest.aborts = false) (hbelow : Reached below rel) :
      Reached (entry o below rest) (o.name ++ [0x2f] ++ rel)
  | later {o : Object} {below rest : Listing} {rel : Path} (h : ¬o.Stops)
      (hrest : Reached rest rel) : Reached (entry o below rest) rel

def found (drop : Bool) : Listing → List Path
  | nil => []
  | fails _ => []
  | entry o below rest =>
      (if o.Listed then [o.name] else []) ++
        ((if o.Entered ∧ drop = false then
          (found below.aborts below).map (o.name ++ [0x2f] ++ ·) else []) ++
        if o.Stops then [] else found drop rest)

end Listing

structure LocalDir where
  opens : Bool
  entries : Listing
  wellFormed : entries.WellFormed

end Tree

section Build

structure SubDir where
  ci : CopyInfo
  opens : Bool
  below : Listing

/-- The loop of `local_build_list` over the entries; what has been listed stays when it returns
early. -/
def readEntries (lpath rpath : Path) : Listing → List CopyInfo → List SubDir →
    Except (List CopyInfo) (List CopyInfo × List SubDir)
  | .nil, filelist, dirlist => .ok (filelist, dirlist)
  | .fails _, filelist, dirlist => .ok (filelist, dirlist)
  | .entry o below rest, filelist, dirlist =>
      if o.IsDots then readEntries lpath rpath rest filelist dirlist
      else if PATH_MAX < lpath.length + o.name.length + 1 then
        readEntries lpath rpath rest filelist dirlist
      else if o.lstat then
        if S_ISDIR o.mode then
          let ci := mkcopyinfo lpath rpath o.name true
          readEntries lpath rpath rest filelist (⟨ci, o.opens, below⟩ :: dirlist)
        else
          let ci := mkcopyinfo lpath rpath o.name false
          if o.lstatAgain = false then .error filelist
          else if ¬S_ISREG o.mode ∧ ¬S_ISLNK o.mode then
            readEntries lpath rpath rest filelist dirlist
          else
            let ci := { ci with time := o.time, mode := o.mode, size := o.size }
            readEntries lpath rpath rest (ci :: filelist) dirlist
      else readEntries lpath rpath rest filelist dirlist

/-- `local_build_list`: the code it returns and the list of files; the codes of the calls for the
directories below are not used. -/
def localBuildList : ℕ → Path → Path → Bool → Listing → List CopyInfo → ℤ × List CopyInfo
  | 0, _, _, _, _, filelist => (-1, filelist)
  | fuel + 1, lpath, rpath, opens, entries, filelist =>
      if opens = false then (-1, filelist)
      else
        match readEntries lpath rpath entries filelist [] with
        | .error filelist => (-1, filelist)
        | .ok (filelist, dirlist) =>
            (0, dirlist.foldl (fun filelist dir =>
              (localBuildList fuel dir.ci.src dir.ci.dst dir.opens dir.below filelist).2) filelist)

def LocalDir.build (d : LocalDir) (lpath rpath : Path) : ℤ × List CopyInfo :=
  localBuildList (d.entries.depth + 1) (withSlash lpath) (withSlash rpath) d.opens d.entries []

end Build

section Send

def syncStartReadtime (path : Path) : Call Unit := request ID_STAT path

def syncFinishReadtime : Call StatMsg := do
  let msg ← readMsg 4
  match msg with
  | [id, mode, size, time] => if id = ID_STAT then pure ⟨mode, size, time⟩ else fail
  | _ => fail

def startReadtimes : List CopyInfo → Call Unit
  | [] => pure ()
  | ci :: filelist => do
      orReturn1 (syncStartReadtime ci.dst)
      startReadtimes filelist

def finishReadtimes : List CopyInfo → Call (List CopyInfo)
  | [] => pure []
  | ci :: filelist => do
      let msg ← orReturn1 syncFinishReadtime
      let known := msg.size = ci.size ∧
        (S_ISREG (ci.mode &&& msg.mode) ∧ msg.time = ci.time ∨
          S_ISLNK (ci.mode &&& msg.mode) ∧ ci.time ≤ msg.time)
      let rest ← finishReadtimes filelist
      pure ({ ci with flag := ci.flag || decide known } :: rest)

def checkTimestamps (filelist : List CopyInfo) : Call (List CopyInfo) := do
  startReadtimes filelist
  finishReadtimes filelist

def pushFile (listonly : Bool) (ci : CopyInfo) : Call Unit :=
  if ci.flag = false ∧ listonly = false then
    orReturn1 (syncSend ci.src ci.dst ci.time ci.mode false)
  else pure ()

def pushFiles (listonly : Bool) : List CopyInfo → Call Unit
  | [] => pure ()
  | ci :: filelist => do
      pushFile listonly ci
      pushFiles listonly filelist

def copyLocalDirRemote (d : LocalDir) (lpath rpath : Path) (checktimestamps listonly : Bool) :
    Call Unit :=
  if lpath = [] ∨ rpath = [] then fail
  else if (d.build lpath rpath).1 ≠ 0 then fail
  else do
    let filelist ← (if checktimestamps then checkTimestamps (d.build lpath rpath).2
      else pure (d.build lpath rpath).2)
    pushFiles listonly filelist

def sentFiles (listonly : Bool) : List CopyInfo → Client → List CopyInfo
  | [], _ => []
  | ci :: filelist, c =>
      (if ci.flag = false ∧ listonly = false then [ci] else []) ++
        match pushFile listonly ci c with
        | (.ok _, c') => sentFiles listonly filelist c'
        | (.error _, _) => []

def LocalDir.sends (d : LocalDir) (lpath rpath : Path) (c : Client) : List CopyInfo :=
  if lpath = [] ∨ rpath = [] ∨ (d.build lpath rpath).1 ≠ 0 then []
  else sentFiles false (d.build lpath rpath).2 c

end Send

section Files

namespace Listing

variable {l : Listing} {rel : Path} {drop : Bool}

def files (l : Listing) : List Path :=
  (l.objects.filter fun x => S_ISREG x.2 ∨ S_ISLNK x.2).map (·.1)

theorem mem_found_iff : rel ∈ l.found l.aborts ↔ Reached l rel := by
  induction l generalizing rel with
  | nil | fails => exact iff_of_false not_mem_nil nofun
  | entry o below rest hbelow hrest =>
    simp only [found, mem_append]
    constructor
    · rintro (h | h | h)
      · split at h
        next hlisted =>
          rw [mem_singleton.mp h]
          exact .file hlisted
        · cases h
      · split at h
        next hentered =>
          obtain ⟨x, hx, rfl⟩ := mem_map.mp h
          have hstops : ¬o.Stops := hentered.1.1.not_stops
          have haborts := hentered.2
          rw [aborts, if_neg hstops] at haborts
          exact .inside hentered.1 haborts (hbelow.mp hx)
        · cases h
      · split at h
        · cases h
        next hstops =>
          rw [aborts, if_neg hstops] at h
          exact .later hstops (hrest.mp h)
    · intro h
      cases h with
      | file hlisted =>
        rw [if_pos hlisted]
        exact .inl mem_cons_self
      | inside hentered haborts hr =>
        have hstops : ¬o.Stops := hentered.1.not_stops
        have hdrop : (entry o below rest).aborts = false := by
          rw [aborts, if_neg hstops, haborts]
        have hboth : o.Entered ∧ (entry o below rest).aborts = false := ⟨hentered, hdrop⟩
        rw [if_pos hboth]
        exact .inr (.inl (mem_map_of_mem (hbelow.mpr hr)))
      | later hstops hr =>
        rw [if_neg hstops, aborts, if_neg hstops]
        exact .inr (.inr (hrest.mpr hr))

theorem files_below (o : Object) (below : Listing) :
    ((below.objects.map fun x => (o.name ++ [0x2f] ++ x.1, x.2)).filter
      fun x => S_ISREG x.2 ∨ S_ISLNK x.2).map (·.1) = below.files.map (o.name ++ [0x2f] ++ ·) := by
  rw [files, filter_map, map_map, map_map]
  rfl

theorem found_sublist (l : Listing) (drop : Bool) : List.Sublist (l.found drop) l.files := by
  induction l generalizing drop with
  | nil => exact .slnil
  | fails rest => exact nil_sublist _
  | entry o below rest hbelow hrest =>
    have hlater : List.Sublist (if o.Stops then [] else found drop rest) rest.files := by
      split
      · exact nil_sublist _
      · exact hrest drop
    rw [files, objects, filter_append, map_append, found, ← append_assoc]
    refine .append ?_ hlater
    rw [Object.tree]
    by_cases hdots : o.IsDots
    · have hlisted : ¬o.Listed := fun h => h.1 hdots
      have hentered : ¬(o.Entered ∧ drop = false) := fun h => h.1.1.1 hdots
      rw [if_neg hlisted, if_neg hentered]
      exact nil_sublist _
    · rw [if_neg hdots]
      by_cases hdir : S_ISDIR o.mode
      · have hlisted : ¬o.Listed := fun h => h.2.2.1 hdir
        rw [if_neg hlisted, if_pos hdir, nil_append]
        split
        · refine .trans ((hbelow below.aborts).map _) ?_
          rw [← files_below]
          exact ((sublist_cons_self _ _).filter _).map _
        · exact nil_sublist _
      · have hentered : ¬(o.Entered ∧ drop = false) := fun h => hdir h.1.1.2.2
        rw [if_neg hdir, if_neg hentered, append_nil]
        split
        next h =>
          rw [filter_cons_of_pos (by simpa using h.2.2.2.2)]
          exact .refl _
        · exact nil_sublist _

def first (path : Path) : Path := path.takeWhile (· ≠ 0x2f)

theorem first_name {name : Path} (h : 0x2f ∉ name) : first name = name := by
  apply takeWhile_eq_self_iff.mpr
  intro b hb
  simpa using ne_of_mem_of_not_mem hb h

theorem first_below {name : Path} (h : 0x2f ∉ name) (rel : Path) :
    first (name ++ [0x2f] ++ rel) = name := by
  rw [first, append_assoc, takeWhile_append_of_pos]
  · simp
  · intro b hb
    simpa using ne_of_mem_of_not_mem hb h

theorem first_of_mem_tree {o : Object} {below : List (Path × UInt32)} (h : 0x2f ∉ o.name)
    {path : Path} (hpath : path ∈ (o.tree below).map (·.1)) : first path = o.name := by
  obtain ⟨x, hx, rfl⟩ := mem_map.mp hpath
  rw [Object.tree] at hx
  split at hx
  · cases hx
  · rcases mem_cons.mp hx with rfl | hx
    · exact first_name h
    · split at hx
      · obtain ⟨y, _, rfl⟩ := mem_map.mp hx
        exact first_below h y.1
      · cases hx

theorem first_mem_names (h : l.WellFormed) {path : Path} (hpath : path ∈ l.objects.map (·.1)) :
    first path ∈ l.names := by
  induction l with
  | nil => cases hpath
  | fails rest ih => exact ih h hpath
  | entry o below rest _ ih =>
    obtain ⟨hslash, _, _, hrest⟩ := h
    rw [objects, map_append, mem_append] at hpath
    rcases hpath with hpath | hpath
    · rw [first_of_mem_tree hslash hpath]
      exact mem_cons_self
    · exact mem_cons_of_mem _ (ih hrest hpath)

theorem tree_nodup {o : Object} {below : List (Path × UInt32)}
    (h : (below.map (·.1)).Nodup) : ((o.tree below).map (·.1)).Nodup := by
  rw [Object.tree]
  split
  · exact nodup_nil
  · split
    · rw [map_cons, map_map, nodup_cons]
      constructor
      · intro hmem
        obtain ⟨x, _, hx⟩ := mem_map.mp hmem
        have hlen := congrArg length hx
        simp at hlen
      · have hcomp : below.map ((·.1) ∘ fun x => (o.name ++ [0x2f] ++ x.1, x.2)) =
            (below.map (·.1)).map (o.name ++ [0x2f] ++ ·) := by
          rw [map_map]
          rfl
        rw [hcomp]
        exact h.map (append_right_injective _)
    · exact nodup_singleton _

theorem objects_nodup (h : l.WellFormed) : (l.objects.map (·.1)).Nodup := by
  induction l with
  | nil => exact nodup_nil
  | fails rest ih => exact ih h
  | entry o below rest hbelow hrest =>
    obtain ⟨hslash, hname, hb, hr⟩ := h
    rw [objects, map_append]
    refine (tree_nodup (hbelow hb)).append (hrest hr) fun path hpath hpath' => ?_
    apply hname
    rw [← first_of_mem_tree hslash hpath]
    exact first_mem_names hr hpath'

theorem mem_files_iff : rel ∈ l.files ↔ ∃ mode, (rel, mode) ∈ l.objects ∧
    (S_ISREG mode ∨ S_ISLNK mode) := by
  simp [files]

theorem files_nodup (h : l.WellFormed) : l.files.Nodup :=
  (objects_nodup h).sublist (filter_sublist.map _)

end Listing

end Files

section Walk

open Listing

variable {lpath rpath : Path} {l : Listing}

def Listing.Fits (l : Listing) (lpath : Path) : Prop :=
  ∀ x ∈ l.objects, (lpath ++ x.1).length + 1 ≤ PATH_MAX

theorem Listing.Fits.rest {o : Object} {below rest : Listing}
    (h : (entry o below rest).Fits lpath) : rest.Fits lpath :=
  fun x hx => h x (mem_append_right _ hx)

theorem Listing.Fits.name {o : Object} {below rest : Listing}
    (h : (entry o below rest).Fits lpath) (hdots : ¬o.IsDots) :
    ¬PATH_MAX < lpath.length + o.name.length + 1 := by
  have hmem : (o.name, o.mode) ∈ (entry o below rest).objects := by
    rw [objects, Object.tree, if_neg hdots]
    exact mem_append_left _ mem_cons_self
  have hlen : (lpath ++ o.name).length + 1 ≤ PATH_MAX := h _ hmem
  rw [length_append] at hlen
  omega

theorem Listing.Fits.below {o : Object} {below rest : Listing}
    (h : (entry o below rest).Fits lpath) (hdots : ¬o.IsDots) (hdir : S_ISDIR o.mode) :
    below.Fits (lpath ++ o.name ++ [0x2f]) := by
  intro x hx
  have hmem : (o.name ++ [0x2f] ++ x.1, x.2) ∈ (entry o below rest).objects := by
    rw [objects, Object.tree, if_neg hdots, if_pos hdir]
    exact mem_append_left _ (mem_cons_of_mem _ (mem_map_of_mem hx))
  have hlen := h _ hmem
  simp only [length_append] at hlen ⊢
  omega

def pairs (lpath rpath : Path) (rels : List Path) : List (Path × Path) :=
  rels.map fun rel => (lpath ++ rel, rpath ++ rel)

def ends (filelist : List CopyInfo) : List (Path × Path) := filelist.map fun ci => (ci.src, ci.dst)

theorem pairs_append (rels rels' : List Path) :
    pairs lpath rpath (rels ++ rels') = pairs lpath rpath rels ++ pairs lpath rpath rels' :=
  map_append

theorem ends_append (files files' : List CopyInfo) :
    ends (files ++ files') = ends files ++ ends files' :=
  map_append

theorem pairs_below (name : Path) (rels : List Path) :
    pairs lpath rpath (rels.map (name ++ [0x2f] ++ ·)) =
      pairs (lpath ++ name ++ [0x2f]) (rpath ++ name ++ [0x2f]) rels := by
  simp only [pairs, map_map, Function.comp_def, append_assoc]

def SubDir.pairs (dir : SubDir) : List (Path × Path) :=
  if dir.opens then Sync.pairs dir.ci.src dir.ci.dst (dir.below.found dir.below.aborts) else []

structure Adds (lpath rpath : Path) (l : Listing) (files : List CopyInfo) (dirs : List SubDir) :
    Prop where
  flag : ∀ ci ∈ files, ci.flag = false
  here : (ends files).Perm (pairs lpath rpath (l.found true))
  all : (ends files ++ dirs.flatMap SubDir.pairs).Perm (pairs lpath rpath (l.found false))
  below : ∀ dir ∈ dirs, dir.below.Fits dir.ci.src ∧ dir.below.depth < l.depth

section Entry

variable {o : Object} {below rest : Listing} {files : List CopyInfo} {dirs : List SubDir}

theorem depth_rest_le : rest.depth ≤ (entry o below rest).depth := le_max_right _ _

theorem Adds.skip (h : Adds lpath rpath rest files dirs) (hlisted : ¬o.Listed) (hnoted : ¬o.Noted)
    (hstops : ¬o.Stops) : Adds lpath rpath (.entry o below rest) files dirs := by
  have hfound : ∀ drop, (entry o below rest).found drop = rest.found drop := by
    intro drop
    have hdrop : ¬(o.Entered ∧ drop = false) := fun hand => hnoted hand.1.1
    rw [found, if_neg hlisted, if_neg hdrop, if_neg hstops, nil_append, nil_append]
  refine ⟨h.flag, ?_, ?_, fun dir hdir => ?_⟩
  · rw [hfound]
    exact h.here
  · rw [hfound]
    exact h.all
  · exact ⟨(h.below dir hdir).1, (h.below dir hdir).2.trans_le depth_rest_le⟩

theorem Adds.stop (hstops : o.Stops) : Adds lpath rpath (.entry o below rest) [] [] := by
  have hempty : ∀ drop, (entry o below rest).found drop = [] := by
    intro drop
    have hdrop : ¬(o.Entered ∧ drop = false) := fun hand => hand.1.1.not_stops hstops
    have hlisted : ¬o.Listed := fun hl => hl.not_stops hstops
    rw [found, if_neg hlisted, if_neg hdrop, if_pos hstops]
    rfl
  refine ⟨nofun, ?_, ?_, nofun⟩
  · rw [hempty]
    exact .nil
  · rw [hempty]
    exact .nil

theorem Adds.file (h : Adds lpath rpath rest files dirs) (hlisted : o.Listed) {ci : CopyInfo}
    (hflag : ci.flag = false) (hci : (ci.src, ci.dst) = (lpath ++ o.name, rpath ++ o.name)) :
    Adds lpath rpath (.entry o below rest) (files ++ [ci]) dirs := by
  have hfound : ∀ drop, pairs lpath rpath ((entry o below rest).found drop) =
      (ci.src, ci.dst) :: pairs lpath rpath (rest.found drop) := by
    intro drop
    have hdrop : ¬(o.Entered ∧ drop = false) := fun hand => hlisted.not_noted hand.1.1
    rw [found, if_pos hlisted, if_neg hdrop, if_neg hlisted.not_stops, hci]
    rfl
  have hends : (ends (files ++ [ci])).Perm ((ci.src, ci.dst) :: ends files) := by
    rw [ends_append]
    exact perm_append_singleton _ _
  refine ⟨?_, ?_, ?_, fun dir hdir => ?_⟩
  · intro x hx
    rcases mem_append.mp hx with hx | hx
    · exact h.flag x hx
    · rwa [mem_singleton.mp hx]
  · rw [hfound]
    exact hends.trans (h.here.cons _)
  · rw [hfound]
    exact (hends.append_right _).trans (h.all.cons _)
  · exact ⟨(h.below dir hdir).1, (h.below dir hdir).2.trans_le depth_rest_le⟩

theorem Adds.dir (h : Adds lpath rpath rest files dirs) (hnoted : o.Noted)
    (hfits : below.Fits (lpath ++ o.name ++ [0x2f])) :
    Adds lpath rpath (.entry o below rest) files
      (dirs ++ [⟨mkcopyinfo lpath rpath o.name true, o.opens, below⟩]) := by
  set dir : SubDir := ⟨mkcopyinfo lpath rpath o.name true, o.opens, below⟩
  have htrue : (entry o below rest).found true = rest.found true := by
    rw [found, if_neg hnoted.not_listed, if_neg (by simp), if_neg hnoted.not_stops,
      nil_append, nil_append]
  have hfalse : pairs lpath rpath ((entry o below rest).found false) =
      dir.pairs ++ pairs lpath rpath (rest.found false) := by
    rw [found, if_neg hnoted.not_listed, if_neg hnoted.not_stops, nil_append,
      pairs_append, SubDir.pairs]
    by_cases hopens : o.opens = true
    · have hentered : o.Entered ∧ false = false := ⟨⟨hnoted, hopens⟩, rfl⟩
      rw [if_pos hentered, if_pos hopens, pairs_below]
      rfl
    · have hentered : ¬(o.Entered ∧ false = false) := fun hand => hopens hand.1.2
      rw [if_neg hentered, if_neg hopens]
      rfl
  refine ⟨h.flag, ?_, ?_, ?_⟩
  · rw [htrue]
    exact h.here
  · rw [hfalse, flatMap_append, flatMap_singleton, ← append_assoc]
    exact perm_append_comm.trans (h.all.append_left _)
  · intro x hx
    rcases mem_append.mp hx with hx | hx
    · exact ⟨(h.below x hx).1, (h.below x hx).2.trans_le depth_rest_le⟩
    · rw [mem_singleton.mp hx]
      exact ⟨hfits, Nat.lt_of_succ_le (le_max_left _ _)⟩

variable (filelist : List CopyInfo) (dirlist : List SubDir)

theorem readEntries_stop (hfits : (entry o below rest).Fits lpath) (hstops : o.Stops) :
    readEntries lpath rpath (.entry o below rest) filelist dirlist = .error filelist := by
  obtain ⟨hdots, hlstat, hdir, hagain⟩ := hstops
  rw [readEntries, if_neg hdots, if_neg (hfits.name hdots), if_pos hlstat, if_neg hdir]
  exact if_pos hagain

theorem readEntries_dir (hfits : (entry o below rest).Fits lpath) (hnoted : o.Noted) :
    readEntries lpath rpath (.entry o below rest) filelist dirlist =
      readEntries lpath rpath rest filelist
        (⟨mkcopyinfo lpath rpath o.name true, o.opens, below⟩ :: dirlist) := by
  obtain ⟨hdots, hlstat, hdir⟩ := hnoted
  rw [readEntries, if_neg hdots, if_neg (hfits.name hdots), if_pos hlstat, if_pos hdir]

def Object.info (o : Object) (lpath rpath : Path) : CopyInfo :=
  { mkcopyinfo lpath rpath o.name false with time := o.time, mode := o.mode, size := o.size }

theorem readEntries_file (hfits : (entry o below rest).Fits lpath) (hlisted : o.Listed) :
    readEntries lpath rpath (.entry o below rest) filelist dirlist =
      readEntries lpath rpath rest (o.info lpath rpath :: filelist) dirlist := by
  obtain ⟨hdots, hlstat, hdir, hagain, hmode⟩ := hlisted
  have hregular : ¬(¬S_ISREG o.mode ∧ ¬S_ISLNK o.mode) :=
    not_and_or.mpr (hmode.imp not_not.mpr not_not.mpr)
  rw [readEntries, if_neg hdots, if_neg (hfits.name hdots), if_pos hlstat, if_neg hdir]
  dsimp only
  rw [hagain, if_neg Bool.false_ne_true.symm, if_neg hregular]
  rfl

theorem readEntries_skip (hlisted : ¬o.Listed) (hnoted : ¬o.Noted) (hstops : ¬o.Stops) :
    readEntries lpath rpath (.entry o below rest) filelist dirlist =
      readEntries lpath rpath rest filelist dirlist := by
  rw [readEntries]
  split
  · rfl
  next hdots =>
    split
    · rfl
    · split
      next hlstat =>
        split
        next hdir => exact absurd ⟨hdots, hlstat, hdir⟩ hnoted
        next hdir =>
          split
          next hagain => exact absurd ⟨hdots, hlstat, hdir, hagain⟩ hstops
          next hagain =>
            split
            · rfl
            next hmode =>
              have hmode : S_ISREG o.mode ∨ S_ISLNK o.mode := by tauto
              exact absurd ⟨hdots, hlstat, hdir, by simpa using hagain, hmode⟩ hlisted
      · rfl

end Entry

theorem readEntries_adds (rpath : Path) (hfits : l.Fits lpath) (filelist : List CopyInfo)
    (dirlist : List SubDir) :
    ∃ files dirs, Adds lpath rpath l files dirs ∧
      readEntries lpath rpath l filelist dirlist =
        if l.aborts then .error (files ++ filelist)
        else .ok (files ++ filelist, dirs ++ dirlist) := by
  induction l generalizing filelist dirlist with
  | nil | fails => exact ⟨[], [], ⟨nofun, .nil, .nil, nofun⟩, rfl⟩
  | entry o below rest _ ih =>
    rw [aborts]
    by_cases hstops : o.Stops
    · rw [if_pos hstops]
      exact ⟨[], [], .stop hstops, readEntries_stop filelist dirlist hfits hstops⟩
    rw [if_neg hstops]
    by_cases hnoted : o.Noted
    · obtain ⟨files, dirs, hadds, hread⟩ := ih hfits.rest filelist
        (⟨mkcopyinfo lpath rpath o.name true, o.opens, below⟩ :: dirlist)
      refine ⟨files, _, hadds.dir hnoted (hfits.below hnoted.1 hnoted.2.2), ?_⟩
      rw [readEntries_dir filelist dirlist hfits hnoted, hread, append_assoc]
      rfl
    by_cases hlisted : o.Listed
    · obtain ⟨files, dirs, hadds, hread⟩ := ih hfits.rest (o.info lpath rpath :: filelist) dirlist
      refine ⟨files ++ [o.info lpath rpath], dirs, hadds.file hlisted rfl rfl, ?_⟩
      rw [readEntries_file filelist dirlist hfits hlisted, hread, append_assoc]
      rfl
    · obtain ⟨files, dirs, hadds, hread⟩ := ih hfits.rest filelist dirlist
      refine ⟨files, dirs, hadds.skip hlisted hnoted hstops, ?_⟩
      rw [readEntries_skip filelist dirlist hlisted hnoted hstops, hread]

theorem foldl_adds {build : List CopyInfo → SubDir → List CopyInfo} {dirs : List SubDir}
    (h : ∀ dir ∈ dirs, ∀ filelist, ∃ files, (∀ ci ∈ files, ci.flag = false) ∧
      (ends files).Perm dir.pairs ∧ build filelist dir = files ++ filelist)
    (filelist : List CopyInfo) :
    ∃ files, (∀ ci ∈ files, ci.flag = false) ∧ (ends files).Perm (dirs.flatMap SubDir.pairs) ∧
      dirs.foldl build filelist = files ++ filelist := by
  induction dirs generalizing filelist with
  | nil => exact ⟨[], nofun, .nil, rfl⟩
  | cons dir dirs ih =>
    obtain ⟨files, hflag, hperm, hbuild⟩ := h dir mem_cons_self filelist
    obtain ⟨files', hflag', hperm', hfold⟩ :=
      ih (fun d hd => h d (mem_cons_of_mem _ hd)) (files ++ filelist)
    refine ⟨files' ++ files, fun ci hci => ?_, ?_, ?_⟩
    · exact (mem_append.mp hci).elim (hflag' ci) (hflag ci)
    · rw [ends_append, flatMap_cons]
      exact perm_append_comm.trans (hperm.append hperm')
    · rw [foldl_cons, hbuild, hfold, append_assoc]

theorem localBuildList_adds (fuel : ℕ) (rpath : Path) (opens : Bool) (hfits : l.Fits lpath)
    (hfuel : l.depth < fuel) (filelist : List CopyInfo) :
    ∃ files, (∀ ci ∈ files, ci.flag = false) ∧
      (ends files).Perm (if opens then pairs lpath rpath (l.found l.aborts) else []) ∧
      localBuildList fuel lpath rpath opens l filelist =
        (if opens ∧ l.aborts = false then 0 else -1, files ++ filelist) := by
  induction fuel generalizing lpath rpath opens l filelist with
  | zero => exact absurd hfuel (Nat.not_lt_zero _)
  | succ fuel ih =>
    rw [localBuildList]
    cases opens with
    | false => exact ⟨[], nofun, .nil, rfl⟩
    | true =>
      obtain ⟨files, dirs, hadds, hread⟩ := readEntries_adds rpath hfits filelist []
      rw [if_neg Bool.false_ne_true.symm, hread]
      cases haborts : l.aborts with
      | true => exact ⟨files, hadds.flag, hadds.here, rfl⟩
      | false =>
        have hdirs : ∀ dir ∈ dirs, ∀ filelist, ∃ files, (∀ ci ∈ files, ci.flag = false) ∧
            (ends files).Perm dir.pairs ∧
            (localBuildList fuel dir.ci.src dir.ci.dst dir.opens dir.below filelist).2 =
              files ++ filelist := by
          intro dir hdir filelist
          obtain ⟨hfit, hdepth⟩ := hadds.below dir hdir
          obtain ⟨files, hflag, hperm, hbuild⟩ :=
            ih dir.ci.dst dir.opens hfit (by omega) filelist
          exact ⟨files, hflag, hperm, by rw [hbuild]⟩
        obtain ⟨files', hflag, hperm, hfold⟩ := foldl_adds hdirs (files ++ filelist)
        refine ⟨files' ++ files, fun ci hci => ?_, ?_, ?_⟩
        · exact (mem_append.mp hci).elim (hflag ci) (hadds.flag ci)
        · rw [ends_append, if_pos rfl]
          exact perm_append_comm.trans ((hperm.append_left _).trans hadds.all)
        · rw [if_neg Bool.false_ne_true, append_nil, append_assoc, ← hfold]
          rfl

end Walk

section Coverage

open Listing

variable {lpath rpath : Path} {d : LocalDir} {c c' : Client}

theorem pushFile_exits (listonly : Bool) (ci : CopyInfo) :
    Proc.Exits (· ≠ .ret 0) (pushFile listonly ci) :=
  .ite (orReturn1_exits _) (.pure ())

theorem pushFiles_exits (listonly : Bool) (filelist : List CopyInfo) :
    Proc.Exits (· ≠ .ret 0) (pushFiles listonly filelist) := by
  induction filelist with
  | nil => exact .pure ()
  | cons ci filelist ih => exact .bind (pushFile_exits listonly ci) fun _ => ih

theorem sentFiles_initial (filelist : List CopyInfo) (c : Client) :
    sentFiles false filelist c <+: filelist.filter (·.flag = false) := by
  induction filelist generalizing c with
  | nil => exact prefix_rfl
  | cons ci filelist ih =>
    rw [sentFiles]
    by_cases hflag : ci.flag = false
    · rw [if_pos ⟨hflag, rfl⟩, filter_cons_of_pos (by simpa using hflag)]
      refine cons_prefix_cons.mpr ⟨rfl, ?_⟩
      split
      · exact ih _
      · exact nil_prefix
    · rw [if_neg fun h => hflag h.1, filter_cons_of_neg (by simpa using hflag)]
      split
      · exact ih _
      · exact nil_prefix

theorem sentFiles_eq_filter {filelist : List CopyInfo}
    (h : pushFiles false filelist c = (.ok (), c')) :
    sentFiles false filelist c = filelist.filter (·.flag = false) := by
  induction filelist generalizing c with
  | nil => rfl
  | cons ci filelist ih =>
    obtain ⟨u, c₁, hfile, hrest⟩ := (Proc.bind_ok_iff _ _ _ _ _).mp h
    rw [sentFiles, hfile]
    by_cases hflag : ci.flag = false
    · rw [if_pos ⟨hflag, rfl⟩, filter_cons_of_pos (by simpa using hflag)]
      exact congrArg (ci :: ·) (ih hrest)
    · rw [if_neg fun h => hflag h.1, filter_cons_of_neg (by simpa using hflag)]
      exact ih hrest

theorem sends_perm (hfits : d.entries.Fits (withSlash lpath))
    (hret : returned (copyLocalDirRemote d lpath rpath false false c) = some 0) :
    (ends (d.sends lpath rpath c)).Perm
      (pairs (withSlash lpath) (withSlash rpath) (d.entries.found d.entries.aborts)) := by
  obtain ⟨files, hflag, hperm, hbuild⟩ := localBuildList_adds (d.entries.depth + 1)
    (withSlash rpath) d.opens hfits (Nat.lt_succ_self _) []
  have hbuild : d.build lpath rpath =
      (if d.opens ∧ d.entries.aborts = false then 0 else -1, files) := by
    rw [LocalDir.build, hbuild, append_nil]
  rw [copyLocalDirRemote, hbuild] at hret
  rw [LocalDir.sends, hbuild]
  by_cases hempty : lpath = [] ∨ rpath = []
  · rw [if_pos hempty] at hret
    cases hret
  by_cases hopens : d.opens = true ∧ d.entries.aborts = false
  · rw [if_neg hempty, if_pos hopens, if_neg (not_not.mpr rfl)] at hret
    obtain ⟨c', hpush⟩ := ok_of_returned (pushFiles_exits false files) hret
    rw [if_pos hopens, if_neg (by tauto), sentFiles_eq_filter hpush,
      filter_eq_self.mpr (by simpa using hflag)]
    rwa [if_pos hopens.1] at hperm
  · have hcode : (-1 : ℤ) ≠ 0 := by decide
    rw [if_neg hempty, if_neg hopens, if_pos hcode] at hret
    cases hret

/-- Each file of the tree is sent once, to the place that corresponds to its own, and nothing else
is sent. -/
structure Covers (d : LocalDir) (lpath rpath : Path) (sends : List CopyInfo) : Prop where
  each : ∀ x ∈ d.entries.objects,
    (ends sends).count (withSlash lpath ++ x.1, withSlash rpath ++ x.1) =
      if S_ISREG x.2 ∨ S_ISLNK x.2 then 1 else 0
  only : ∀ ci ∈ sends, ∃ rel ∈ d.entries.files,
    ci.src = withSlash lpath ++ rel ∧ ci.dst = withSlash rpath ++ rel
  distinct : (sends.map (·.dst)).Nodup

theorem mem_pairs_iff {rels : List Path} {rel : Path} :
    (lpath ++ rel, rpath ++ rel) ∈ pairs lpath rpath rels ↔ rel ∈ rels := by
  simp [pairs]

theorem covers_of_perm {sends : List CopyInfo}
    (hperm : (ends sends).Perm (pairs (withSlash lpath) (withSlash rpath) d.entries.files)) :
    Covers d lpath rpath sends := by
  have hfiles : d.entries.files.Nodup := files_nodup d.wellFormed
  refine ⟨?_, ?_, ?_⟩
  · rintro ⟨rel, mode⟩ hx
    rw [hperm.count_eq]
    split
    next hmode =>
      have hrel : rel ∈ d.entries.files := mem_files_iff.mpr ⟨mode, hx, hmode⟩
      refine count_eq_one_of_mem ?_ (mem_pairs_iff.mpr hrel)
      refine hfiles.map fun rel rel' heq => ?_
      exact append_cancel_left (Prod.ext_iff.mp heq).1
    next hmode =>
      refine count_eq_zero_of_not_mem fun hmem => hmode ?_
      obtain ⟨mode', hx', hmode'⟩ := mem_files_iff.mp (mem_pairs_iff.mp hmem)
      have heq : (rel, mode) = (rel, mode') :=
        inj_on_of_nodup_map (objects_nodup d.wellFormed) hx hx' rfl
      rwa [(Prod.ext_iff.mp heq).2]
  · intro ci hci
    have hmem := hperm.mem_iff.mp (mem_map_of_mem hci)
    obtain ⟨rel, hrel, heq⟩ := mem_map.mp hmem
    exact ⟨rel, hrel, (Prod.ext_iff.mp heq).1.symm, (Prod.ext_iff.mp heq).2.symm⟩
  · have hdst : (sends.map (·.dst)).Perm (d.entries.files.map (withSlash rpath ++ ·)) := by
      have hsnd := hperm.map (·.2)
      rwa [ends, pairs, map_map, map_map] at hsnd
    exact hdst.nodup_iff.mpr (hfiles.map (append_right_injective _))

/-- A directory push that returns 0 covers the tree exactly when the walk has found each file. -/
theorem directory_push_covers_iff (d : LocalDir) (lpath rpath : Path) (c : Client)
    (hfits : d.entries.Fits (withSlash lpath))
    (hret : returned (copyLocalDirRemote d lpath rpath false false c) = some 0) :
    Covers d lpath rpath (d.sends lpath rpath c) ↔
      ∀ rel ∈ d.entries.files, Listing.Reached d.entries rel := by
  have hperm := sends_perm hfits hret
  have hsub := found_sublist d.entries d.entries.aborts
  constructor
  · intro h rel hrel
    obtain ⟨mode, hx, hmode⟩ := mem_files_iff.mp hrel
    have hcount := h.each (rel, mode) hx
    rw [if_pos hmode] at hcount
    have hmem := hperm.mem_iff.mp (count_pos_iff.mp (hcount ▸ Nat.one_pos))
    exact mem_found_iff.mp (mem_pairs_iff.mp hmem)
  · intro h
    have hfiles : d.entries.files.Nodup := files_nodup d.wellFormed
    have hall : (d.entries.found d.entries.aborts).Perm d.entries.files := by
      apply (perm_ext_iff_of_nodup (hfiles.sublist hsub) hfiles).mpr
      intro rel
      exact ⟨fun hrel => hsub.subset hrel, fun hrel => mem_found_iff.mpr (h rel hrel)⟩
    exact covers_of_perm (hperm.trans (hall.map _))

def smallTree (opens : Bool) : LocalDir where
  opens := true
  entries := .entry ⟨text "d", 0x41ed, 0, 0, true, true, opens⟩
    (.entry ⟨text "f", 0x81a4, 0, 1, true, true, false⟩ .nil .nil) .nil
  wellFormed := by cases opens <;> decide

/-- The directory is opened, and the file in it is sent. -/
theorem directory_push_covers_small :
    returned (copyLocalDirRemote (smallTree true) (text "l") (text "/r") false false
      (.hearing [ID_OKAY, 0])) = some 0 ∧
    Covers (smallTree true) (text "l") (text "/r")
      ((smallTree true).sends (text "l") (text "/r") (.hearing [ID_OKAY, 0])) := by
  have hret : returned (copyLocalDirRemote (smallTree true) (text "l") (text "/r") false false
      (.hearing [ID_OKAY, 0])) = some 0 := by decide +kernel
  have hfits : (smallTree true).entries.Fits (withSlash (text "l")) := by
    have hall : ∀ x ∈ (smallTree true).entries.objects,
        (withSlash (text "l") ++ x.1).length + 1 ≤ PATH_MAX := by decide +kernel
    exact hall
  refine ⟨hret, (directory_push_covers_iff _ _ _ _ hfits hret).mpr ?_⟩
  have hfiles : (smallTree true).entries.files = [text "d" ++ [0x2f] ++ text "f"] := by
    decide +kernel
  rw [hfiles]
  intro rel hrel
  rw [mem_singleton.mp hrel]
  have hentered : Object.Entered ⟨text "d", 0x41ed, 0, 0, true, true, true⟩ := by decide +kernel
  have hlisted : Object.Listed ⟨text "f", 0x81a4, 0, 1, true, true, false⟩ := by decide +kernel
  exact .inside hentered rfl (.file hlisted)

/-- The directory cannot be opened: the push returns 0 and has sent nothing. -/
theorem directory_push_misses_file :
    returned (copyLocalDirRemote (smallTree false) (text "l") (text "/r") false false
      (.hearing [])) = some 0 ∧
    (text "d/f", (0x81a4 : UInt32)) ∈ (smallTree false).entries.objects ∧
    (smallTree false).sends (text "l") (text "/r") (.hearing []) = [] ∧
    ¬Covers (smallTree false) (text "l") (text "/r")
      ((smallTree false).sends (text "l") (text "/r") (.hearing [])) := by
  have hfile : (text "d/f", (0x81a4 : UInt32)) ∈ (smallTree false).entries.objects := by
    decide +kernel
  have hsends : (smallTree false).sends (text "l") (text "/r") (.hearing []) = [] := by
    decide +kernel
  refine ⟨by decide +kernel, hfile, hsends, fun h => ?_⟩
  have hcount := h.each _ hfile
  rw [hsends, if_pos (.inl (by decide))] at hcount
  cases hcount

end Coverage

end PaxAdb.Sync
