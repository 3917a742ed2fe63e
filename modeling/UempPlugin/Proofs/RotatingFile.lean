import Mathlib.Data.List.TakeWhile
import UempPlugin.Lib.Simulation
import UempPlugin.Ref.RotatingFile
import UempPlugin.Spec.RollingLog

/-!
# `rotating_file_sink` is a log that rolls when it is full

Where no call fails the sink is the log of `Spec/RollingLog`: its file is open,
`current_size_` is the length of that file, and every function of it is the
operation of the same name on the shelf that its names make visible. The text
it holds is then accounted for, and so is the size of what it writes.
-/

namespace UempPlugin.Ref

open UempPlugin.Lib UempPlugin.Spec

/-! ## The names -/

/-- The text up to the last dot. -/
theorem last_dot {fname : Text} (h : '.' ∈ fname) :
    ∃ base, fname = base ++ '.' :: (fname.reverse.takeWhile (· ≠ '.')).reverse := by
  have hdrop : fname.reverse.dropWhile (· ≠ '.') ≠ [] := by
    rw [ne_eq, List.dropWhile_eq_nil_iff]
    intro hall
    have := hall '.' (List.mem_reverse.2 h)
    simp at this
  obtain ⟨c, rest, hrest⟩ := List.exists_cons_of_ne_nil hdrop
  have hdot : c = '.' := by
    have hhead := List.head?_dropWhile_not (fun c : Char => decide (c ≠ '.')) fname.reverse
    rw [hrest] at hhead
    simpa using hhead
  refine ⟨rest.reverse, ?_⟩
  have hall := List.takeWhile_append_dropWhile (p := fun c : Char => decide (c ≠ '.'))
    (l := fname.reverse)
  rw [hrest, hdot] at hall
  have hrev := congrArg List.reverse hall
  rw [List.reverse_append, List.reverse_cons, List.append_assoc, List.reverse_reverse] at hrev
  exact hrev.symm

theorem splitByExtension_append (fname : Text) :
    (Log.splitByExtension fname).1 ++ (Log.splitByExtension fname).2 = fname := by
  rw [Log.splitByExtension]
  split
  · exact List.append_nil fname
  · next h =>
      have hdot : '.' ∈ fname := by
        by_contra hno
        exact h (.inl hno)
      obtain ⟨base, hbase⟩ := last_dot hdot
      have hlen := congrArg List.length hbase
      rw [List.length_append, List.length_cons] at hlen
      have htake : fname.take (fname.length - (fname.reverse.takeWhile (· ≠ '.')).reverse.length - 1) =
          base := by
        rw [show fname.length - (fname.reverse.takeWhile (· ≠ '.')).reverse.length - 1 =
          base.length by omega]
        exact (congrArg (List.take base.length) hbase).trans List.take_left
      show fname.take _ ++ '.' :: (fname.reverse.takeWhile (· ≠ '.')).reverse = fname
      rw [htake]
      exact hbase.symm

theorem calcPath_injective (filename : Path) : Function.Injective (calcPath filename) := by
  have hsplit := splitByExtension_append filename
  have hpath : ∀ k, calcPath filename (k + 1) =
      (Log.splitByExtension filename).1 ++ '.' :: (toStr (k + 1) ++
        (Log.splitByExtension filename).2) := fun k => by
    rw [calcPath, if_neg (Nat.succ_ne_zero k)]
    simp only [List.append_assoc, List.cons_append]
  have hzero : ∀ k, filename ≠ calcPath filename (k + 1) := by
    intro k heq
    rw [hpath] at heq
    have hlen := congrArg List.length (hsplit.trans heq)
    simp only [List.length_append, List.length_cons] at hlen
    omega
  intro i j h
  match i, j with
  | 0, 0 => rfl
  | 0, j + 1 => exact absurd h (hzero j)
  | i + 1, 0 => exact absurd h.symm (hzero i)
  | i + 1, j + 1 =>
      rw [hpath, hpath] at h
      have hrest := (List.cons.inj (List.append_cancel_left h)).2
      exact toStr_injective (List.append_cancel_right hrest)

namespace RotatingSink

variable {a : RotatingArgs}

/-- The arguments, as the log knows them. -/
def cfg (a : RotatingArgs) : SizeCfg where
  maxSize := a.maxSize
  maxFiles := a.maxFiles
  rotateOnOpen := a.rotateOnOpen

/-- The sink's files as a shelf. -/
def shelf (a : RotatingArgs) (d : Disk Path) : Shelf := Disk.shelf (calcPath a.baseFilename) d

/-- No call fails, the file is open, and the sink knows its size. -/
structure Good (a : RotatingArgs) (s : RotatingSink) : Prop where
  noFault : s.disk.NoFault
  fd : s.fd = some a.baseFilename
  file : ∃ f, s.disk.files a.baseFilename = some f ∧ s.currentSize = f.bytes.length

/-- The files of no one else are touched. -/
def Keeps (a : RotatingArgs) (d d' : Disk Path) : Prop :=
  ∀ p, (∀ k, p ≠ calcPath a.baseFilename k) → d'.files p = d.files p

/-! ## Rotation -/

/-- Closed or open, the files are `t` and nothing fails. -/
structure Left (a : RotatingArgs) (s : RotatingSink) (t : Shelf) (s' : RotatingSink) : Prop where
  noFault : s'.disk.NoFault
  shelf : shelf a s'.disk = t
  keeps : Keeps a s.disk s'.disk
  currentSize : s'.currentSize = s.currentSize

theorem injective : Function.Injective (calcPath a.baseFilename) :=
  calcPath_injective a.baseFilename

theorem Keeps.trans {d d' d'' : Disk Path} (h : Keeps a d d') (h' : Keeps a d' d'') :
    Keeps a d d'' := fun p hp => (h' p hp).trans (h p hp)

theorem keeps_update {d d' : Disk Path} {f : Option File}
    (h : d'.files = Function.update d.files a.baseFilename f) : Keeps a d d' := by
  intro p hp
  rw [h]
  exact Function.update_of_ne (hp 0) _ _

/-- The file is truncated at the first attempt. -/
theorem truncateLoop_eq {d : Disk Path} (h : d.NoFault) (p : Path) :
    ∃ d', truncateLoop p openTries d = (true, d') ∧ d'.NoFault ∧
      d'.files = Function.update d.files p (some { bytes := [] }) ∧
      d'.lost = d.lost ++ (d.files p).toList := by
  have hm : (d.mkdirs (parentPath p)).NoFault := h.of_fault rfl
  obtain ⟨hok, hfiles, hlost⟩ := Disk.truncate_eq hm p
  have ht : ((d.mkdirs (parentPath p)).truncate p).2.NoFault := hm.of_fault (by simp)
  have hopen := Disk.fopen_ok ht p
  refine ⟨(((d.mkdirs (parentPath p)).truncate p).2.fopen p).2, ?_, ht.of_fault (by simp), ?_, ?_⟩
  · rw [openTries, truncateLoop]
    split
    · next d' he => rw [he] at hok; cases hok
    · next d' he =>
        rw [he] at hopen ⊢
        split
        · next d'' he' => rw [he']
        · next d'' he' => rw [he'] at hopen; cases hopen
  · rw [Disk.fopen_files ht, hfiles, Function.update_self, Option.getD_some, Function.update_idem]
    rfl
  · rw [Disk.fopen_lost, hlost]
    rfl

theorem reopen_spec {s : RotatingSink} (h : s.disk.NoFault) :
    ∃ s', reopen a s = .ok () s' ∧ Left a s (shelf a s.disk).clear s' ∧
      s'.fd = some a.baseFilename := by
  obtain ⟨d, he, hd, hfiles, hlost⟩ := truncateLoop_eq h a.baseFilename
  refine ⟨{ s with fd := some a.baseFilename, disk := d }, ?_, ?_, rfl⟩
  · rw [reopen, he]
  · exact ⟨hd, Disk.shelf_clear injective hfiles hlost, keeps_update hfiles, rfl⟩

/-- Nothing that can fail does, and a round is one guarded move. -/
theorem moveBackup_eq {s : RotatingSink} (h : s.disk.NoFault) (i : Nat) :
    moveBackup a i s = .ok () { s with
      disk := s.disk.moveOver (calcPath a.baseFilename i) (calcPath a.baseFilename (i + 1)) } := by
  have hne : calcPath a.baseFilename i ≠ calcPath a.baseFilename (i + 1) :=
    fun he => absurd (injective he) (by omega)
  have ht : s.disk.tick.NoFault := h.of_fault rfl
  simp only [moveBackup, Disk.moveOver, Disk.stat_eq h]
  cases hs : s.disk.files (calcPath a.baseFilename i) with
  | none => rfl
  | some f =>
      have hu : (s.disk.tick.unlink (calcPath a.baseFilename (i + 1))).NoFault :=
        ht.of_fault (Disk.unlink_fault _ _)
      have hsrc : (s.disk.tick.unlink (calcPath a.baseFilename (i + 1))).files
          (calcPath a.baseFilename i) = some f := by
        rw [Disk.unlink_other _ hne]
        exact hs
      simp only [Option.isSome_some, renameFile, hu.refuses, Option.isNone_none, hsrc,
        Bool.and_self]

theorem rotateLoop_eq :
    ∀ (n : Nat) {s : RotatingSink}, s.disk.NoFault → rotateLoop a (n + 1) s = .ok () { s with
      disk := Disk.cascade (calcPath a.baseFilename) n s.disk } := by
  intro n
  induction n with
  | zero =>
      intro s h
      exact (bind_of_ok (moveBackup_eq h 0)).trans rfl
  | succ n ih =>
      intro s h
      rw [rotateLoop, bind_of_ok (moveBackup_eq h (n + 1)),
        ih (h.of_fault (Disk.moveOver_fault _ _ _))]
      rfl

theorem rotate_spec {s : RotatingSink} (h : s.disk.NoFault) :
    ∃ s', rotate a s = .ok () s' ∧ Left a s (RollingLog.rotate (cfg a) (shelf a s.disk)) s' ∧
      s'.fd = some a.baseFilename := by
  have hclose : rotate a s = (rotateLoop a a.maxFiles >>= fun _ => reopen a) { s with fd := none } :=
    rfl
  rw [hclose, RollingLog.rotate, show (cfg a).maxFiles = a.maxFiles from rfl]
  by_cases hN : a.maxFiles = 0
  · rw [if_pos hN, hN]
    obtain ⟨s', he, hleft, hfd⟩ := reopen_spec (a := a) (s := { s with fd := none }) h
    exact ⟨s', he, ⟨hleft.noFault, hleft.shelf, hleft.keeps, hleft.currentSize⟩, hfd⟩
  · obtain ⟨n, hn⟩ : ∃ n, a.maxFiles = n + 1 := ⟨a.maxFiles - 1, by omega⟩
    have hloop := rotateLoop_eq (a := a) n (s := { s with fd := none }) h
    obtain ⟨hshelf, hkeeps⟩ := Disk.cascade_shelf (injective (a := a)) h n
    obtain ⟨s', he, hleft, hfd⟩ := reopen_spec (a := a)
      (s := { s with fd := none, disk := Disk.cascade (calcPath a.baseFilename) n s.disk })
      (h.of_fault (Disk.cascade_fault _ _ _))
    rw [if_neg hN, hn]
    refine ⟨s', (bind_of_ok hloop).trans he, ⟨hleft.noFault, ?_, ?_, hleft.currentSize⟩, hfd⟩
    · rw [hleft.shelf]
      show Shelf.clear (Disk.shelf _ _) = _
      rw [hshelf]
      rfl
    · exact Keeps.trans hkeeps hleft.keeps

/-! ## Messages and restarts -/

theorem Good.zero {s : RotatingSink} (h : Good a s) :
    s.currentSize = RollingLog.size (shelf a s.disk) := by
  obtain ⟨f, hf, hsize⟩ := h.file
  rw [hsize, RollingLog.size]
  show _ = (Chain.slotBytes (s.disk.files a.baseFilename)).length
  rw [hf, Chain.slotBytes_some]

theorem fileSize_eq {s : RotatingSink} (h : Good a s) :
    DailySink.fileSize s.fd s.disk = (some s.currentSize, s.disk.tick) := by
  obtain ⟨f, hf, hsize⟩ := h.file
  simp only [h.fd, DailySink.fileSize, h.noFault.refuses, hf, hsize]

/-- Room is made as the log makes it, and `new_size` is what the file will hold
with the message. -/
theorem makeRoom_spec {s : RotatingSink} (h : Good a s) (msg : Bytes) :
    ∃ s', makeRoom a msg s =
        .ok (RollingLog.size (RollingLog.makeRoom (cfg a) msg (shelf a s.disk)) + msg.length) s' ∧
      s'.disk.NoFault ∧ shelf a s'.disk = RollingLog.makeRoom (cfg a) msg (shelf a s.disk) ∧
      Keeps a s.disk s'.disk ∧ s'.fd = some a.baseFilename ∧
      (s'.disk.files a.baseFilename).isSome := by
  obtain ⟨f, hf, -⟩ := h.file
  have hthere : (s.disk.files a.baseFilename).isSome := by rw [hf]; rfl
  have hsize := h.zero
  have hmax : (cfg a).maxSize = a.maxSize := rfl
  simp only [makeRoom, RollingLog.makeRoom, hmax, fileSize_eq h, ← hsize]
  by_cases hfull : s.currentSize + msg.length > a.maxSize
  · by_cases htext : s.currentSize > 0
    · obtain ⟨s', he, hleft, hfd⟩ := rotate_spec (a := a)
        (s := { s with disk := s.disk.tick }) (h.noFault.of_fault rfl)
      have hshelf : shelf a s'.disk = RollingLog.rotate (cfg a) (shelf a s.disk) := hleft.shelf
      have hzero := congrFun (congrArg Shelf.chain hshelf) 0
      rw [RollingLog.rotate_zero] at hzero
      have hempty : RollingLog.size (RollingLog.rotate (cfg a) (shelf a s.disk)) = 0 := by
        rw [RollingLog.size, RollingLog.rotate_zero]
        rfl
      simp only [if_pos hfull, if_pos htext, if_pos (And.intro hfull htext)]
      refine ⟨s', ?_, hleft.noFault, hshelf, hleft.keeps, hfd, ?_⟩
      · rw [he, hempty, Nat.zero_add]
      · exact Option.isSome_iff_exists.2 ⟨_, hzero⟩
    · simp only [if_pos hfull, if_neg htext, if_neg fun hand => htext (And.right hand)]
      exact ⟨{ s with disk := s.disk.tick }, by rw [hsize], h.noFault.of_fault rfl, rfl,
        fun _ _ => rfl, h.fd, hthere⟩
  · simp only [if_neg hfull, if_neg fun hand => hfull (And.left hand)]
    exact ⟨s, by rw [hsize], h.noFault, rfl, fun _ _ => rfl, h.fd, hthere⟩

/-- A message is logged as the log logs it; nothing is thrown. -/
theorem sinkIt_spec {s : RotatingSink} (h : Good a s) (msg : Bytes) :
    ∃ s', sinkIt a msg s = .ok () s' ∧ Good a s' ∧
      shelf a s'.disk = RollingLog.log (cfg a) msg (shelf a s.disk) ∧
      Keeps a s.disk s'.disk := by
  obtain ⟨s', he, hd, hshelf, hkeeps, hfd, hthere⟩ := makeRoom_spec h msg
  obtain ⟨f, hf⟩ := Option.isSome_iff_exists.1 hthere
  have hfiles := Disk.append_files hf msg
  have hsize : RollingLog.size (shelf a s'.disk) = f.bytes.length := by
    rw [RollingLog.size]
    show (Chain.slotBytes (s'.disk.files a.baseFilename)).length = _
    rw [hf, Chain.slotBytes_some]
  rw [sinkIt, bind_of_ok he, writeMessage, hfd, writeFile]
  simp only [Disk.fwrite_eq hd]
  refine ⟨_, rfl, ⟨hd.of_fault (by simp), rfl, { bytes := f.bytes ++ msg, written := true }, ?_, ?_⟩,
    ?_, Keeps.trans hkeeps ?_⟩
  · show (s'.disk.append a.baseFilename msg).files a.baseFilename = _
    rw [hfiles, Function.update_self]
  · simp only [List.length_append]
    rw [← hshelf, hsize]
  · rw [RollingLog.log, ← hshelf]
    exact Disk.shelf_append injective hf msg
  · exact keeps_update hfiles

/-- A new sink over the files, where its arguments are in range. -/
theorem construct_spec (hsize : 1 ≤ a.maxSize) (hfiles : a.maxFiles ≤ 200000) {d : Disk Path}
    (h : d.NoFault) :
    ∃ s', construct a d = .ok s' s'.disk ∧ Good a s' ∧
      shelf a s'.disk = RollingLog.restart (cfg a) (shelf a d) ∧ Keeps a d s'.disk := by
  have hd : (openFile a.baseFilename d).2.NoFault := h.of_fault (openFile_fault _ _)
  have hopened : (openFile a.baseFilename d).2.files = Function.update d.files a.baseFilename
    (some ((d.files a.baseFilename).getD { bytes := [] })) := openFile_files h _
  have hfile : (openFile a.baseFilename d).2.files a.baseFilename =
      some ((d.files a.baseFilename).getD { bytes := [] }) := by
    rw [hopened, Function.update_self]
  have hcreate : shelf a (openFile a.baseFilename d).2 = (shelf a d).create :=
    Disk.shelf_create injective hopened (openFile_lost h _)
  have hok : openFile a.baseFilename d = (true, (openFile a.baseFilename d).2) := by
    rw [openFile_eq h]
  generalize (openFile a.baseFilename d).2 = d1 at hd hopened hfile hcreate hok
  have hopen : Good a {
      currentSize := ((d.files a.baseFilename).getD { bytes := [] }).bytes.length
      fd := some a.baseFilename
      disk := d1.tick } := ⟨hd.of_fault rfl, rfl, _, hfile, rfl⟩
  have hzero := hopen.zero
  have hsame : shelf a d1.tick = (shelf a d).create := hcreate
  have hkeep : Keeps a d d1.tick := keeps_update hopened
  have hcfg : (cfg a).rotateOnOpen = a.rotateOnOpen := rfl
  rw [construct, if_neg (by omega), if_neg (by omega), hok]
  simp only [DailySink.fileSize, hd.refuses, hfile]
  generalize ((d.files a.baseFilename).getD { bytes := [] }).bytes.length = n at hopen hzero ⊢
  simp only [hsame] at hzero
  rw [rotateOnOpen, RollingLog.restart, ← hzero, hcfg]
  split
  · obtain ⟨s', he, hleft, hfd⟩ := rotate_spec (a := a) hopen.noFault
    rw [he]
    have hshelf : shelf a s'.disk = RollingLog.rotate (cfg a) (shelf a d).create := by
      rw [hleft.shelf, hsame]
    have hempty := congrFun (congrArg Shelf.chain hshelf) 0
    rw [RollingLog.rotate_zero] at hempty
    exact ⟨{ s' with currentSize := 0 }, rfl, ⟨hleft.noFault, hfd, _, hempty, rfl⟩, hshelf,
      Keeps.trans hkeep hleft.keeps⟩
  · exact ⟨_, rfl, hopen, hsame, hkeep⟩

end RotatingSink

end UempPlugin.Ref
