import UempPlugin.Lib.Retention
import UempPlugin.Lib.Simulation
import UempPlugin.Proofs.VolumeNames

/-!
# The indices of the files of a day

`files_` is the list of indices of the day, `current_index_` the last of them.
Writing, rotating and opening keep it so, as long as the index that
`open_new_file_` arrives at is above those in the list. It is not, when the
sink opens a day with `rotate_on_open`: there `current_index_` is still 0, and
the new file is always the one of index 1, whatever files the day has already.
The other way is the last index there is, behind which comes 0.

Keeping one file only hides this, unless the file opened is among those that
are removed.
-/

namespace UempPlugin.Ref.DailyCountSink

open UempPlugin.Lib

/-- The list is increasing by index, the last entry is the file being written,
and no file was removed while it was open. -/
structure Bookkept (a : DailyCountArgs) (s : DailyCountSink) : Prop where
  increasing : s.files.Pairwise fun x y => ∃ i j, a.extractIndex s.currentDate x = .ok i ∧
    a.extractIndex s.currentDate y = .ok j ∧ i < j
  last : ∃ name, s.files.getLast? = some name ∧ s.fd = some (joinPath a.dir name)
  kept : ∀ r ∈ s.removed, r.2 ≠ some r.1

/-- Index `j` comes after those that are there; or it alone is kept, and is none
of them. -/
def Advances (a : DailyCountArgs) (there : Nat → Prop) (j : Nat) : Prop :=
  (∀ i, there i → i < j) ∨ a.maxFiles = 1 ∧ ¬ there j

/-! ## What the calls do to the folder -/

/-- Nothing fails from here on either, and no day has got a name that its files
do not bear. -/
structure Tame (a : DailyCountArgs) (d d' : Disk Path) : Prop where
  noFault : d'.NoFault
  named : ∀ date, date.length = 10 → a.Named date d → a.Named date d'

variable {a : DailyCountArgs} {d d' d'' : Disk Path}

theorem Tame.trans (h : Tame a d d') (h' : Tame a d' d'') : Tame a d d'' where
  noFault := h'.noFault
  named := fun date hlen hnamed => h'.named date hlen (h.named date hlen hnamed)

theorem Tame.of_subset (hd : d'.NoFault)
    (h : ∀ p, (d'.files p).isSome → (d.files p).isSome) : Tame a d d' where
  noFault := hd
  named := fun _ _ hnamed name hsep htodays hsome => hnamed name hsep htodays (h _ hsome)

theorem Tame.fopen (hd : d.NoFault) {date : Text} (hlen : date.length = 10) (hdate : sep ∉ date)
    {i : Nat} (hi : i < wordSize) : Tame a d (d.fopen (a.makePath date i)).2 where
  noFault := hd.of_fault (Disk.fopen_fault _ _)
  named := by
    intro date' hlen' hnamed name hsep htodays hsome
    by_cases hpath : joinPath a.dir name = a.makePath date i
    · have hname : name = a.makeFilename date i :=
        joinPath_inj hsep (a.sep_notMem_makeFilename hdate i) hpath
      rw [hname] at htodays ⊢
      rw [a.date_unique (hlen'.trans hlen.symm) htodays]
      exact ⟨i, hi, rfl⟩
    · rw [Disk.fopen_other d hpath] at hsome
      exact hnamed name hsep htodays hsome

theorem Tame.unlink (hd : d.NoFault) (p : Path) : Tame a d (d.unlink p) := by
  refine .of_subset (hd.of_fault (Disk.unlink_fault _ _)) fun q hq => ?_
  rw [Disk.unlink_files hd] at hq
  by_cases hp : q = p
  · rw [hp, Function.update_self] at hq
    cases hq
  · rwa [Function.update_of_ne hp] at hq

theorem Tame.fwrite (hd : d.NoFault) (p : Path) (b : Bytes) : Tame a d (d.fwrite p b).2 := by
  refine .of_subset (hd.of_fault (Disk.fwrite_fault _ _ _)) fun q hq => ?_
  by_cases hp : q = p
  · subst hp
    rw [Disk.fwrite_eq hd, Disk.tick_files, Disk.append] at hq
    split at hq
    · next f hf =>
        rw [hf]
        rfl
    · exact hq
  · rwa [Disk.fwrite_other d b hp] at hq

/-! ## Opening a file -/

/-- How many bytes the file has. -/
def sizeOnDisk (d : Disk Path) (p : Path) : Nat := ((d.files p).getD { bytes := [] }).bytes.length

theorem measure_openFile {s : DailyCountSink} (hd : s.disk.NoFault) (p : Path) :
    ∃ d, measure p (openFile p s) =
        { s with fd := some p, failed := false, currentSize := sizeOnDisk s.disk p, disk := d } ∧
      d.files = (s.disk.fopen p).2.files ∧ d.NoFault := by
  have hok := Disk.fopen_ok hd p
  have hfault := Disk.fopen_fault s.disk p
  have hfiles := Disk.fopen_files hd p
  rw [openFile]
  generalize s.disk.fopen p = r at hok hfault hfiles
  obtain ⟨ok, d⟩ := r
  subst hok
  have hd' : d.NoFault := hd.of_fault hfault
  have hfile : d.files p = some ((s.disk.files p).getD { bytes := [] }) := by
    rw [hfiles, Function.update_self]
  refine ⟨d.tick.tick, ?_, rfl, hd'⟩
  simp only [measure, Disk.stat_eq hd', hfile, Option.isSome_some]
  rw [fileSize, Disk.NoFault.refuses (d := d.tick) hd', Disk.tick_files, hfile]
  rfl

/-! ## Cleaning up -/

theorem cleanupLoop_eq (hmax : a.maxFiles ≠ 0) :
    ∀ (names : List Text) (s : DailyCountSink), s.disk.NoFault → ∃ d,
      cleanupLoop a names s =
        { s with
          files := retained a.maxFiles names
          disk := d
          removed := s.removed ++
            (dropped a.maxFiles names).map fun name => (joinPath a.dir name, s.fd) } ∧
      Tame a s.disk d := by
  intro names
  induction names with
  | nil =>
      intro s hd
      refine ⟨s.disk, ?_, .of_subset hd fun _ h => h⟩
      have hnone : ([] : List Text).length ≤ a.maxFiles := Nat.zero_le _
      obtain ⟨hdropped, hretained⟩ := retained_of_le hnone
      rw [cleanupLoop, hdropped, hretained, List.map_nil, List.append_nil]
  | cons name rest ih =>
      intro s hd
      rw [cleanupLoop]
      split
      · next hmany =>
          obtain ⟨hdropped, hretained⟩ := dropped_cons (x := name) hmax hmany
          obtain ⟨d, heq, htame⟩ := ih { s with
            disk := s.disk.unlink (joinPath a.dir name)
            removed := s.removed ++ [(joinPath a.dir name, s.fd)] }
            (hd.of_fault (Disk.unlink_fault _ _))
          refine ⟨d, ?_, (Tame.unlink hd _).trans htame⟩
          simp only [heq, hdropped, hretained, List.map_cons, List.append_assoc,
            List.singleton_append]
      · next hfew =>
          have hle : (name :: rest).length ≤ a.maxFiles := Nat.le_of_not_lt hfew
          obtain ⟨hdropped, hretained⟩ := retained_of_le hle
          refine ⟨s.disk, ?_, .of_subset hd fun _ h => h⟩
          rw [hdropped, hretained, List.map_nil, List.append_nil]

theorem cleanupOldFiles_eq {s : DailyCountSink} (hd : s.disk.NoFault) : ∃ d,
    cleanupOldFiles a s =
      { s with
        files := retained a.maxFiles s.files
        disk := d
        removed := s.removed ++
          (dropped a.maxFiles s.files).map fun name => (joinPath a.dir name, s.fd) } ∧
      Tame a s.disk d := by
  rw [cleanupOldFiles]
  split
  · next hzero =>
      refine ⟨s.disk, ?_, .of_subset hd fun _ h => h⟩
      rw [hzero, retained, dropped, if_pos rfl, if_pos rfl, List.map_nil, List.append_nil]
  · next hmax => exact cleanupLoop_eq hmax s.files s hd

/-! ## The invariant -/

/-- `files_` are the indices `is` of the current date. -/
structure Indexed (a : DailyCountArgs) (is : List Nat) (s : DailyCountSink) : Prop where
  noFault : s.disk.NoFault
  length : s.currentDate.length = 10
  sep : sep ∉ s.currentDate
  files : s.files = is.map (a.makeFilename s.currentDate)
  increasing : is.Pairwise (· < ·)
  bounded : ∀ i ∈ is, i < wordSize
  kept : ∀ r ∈ s.removed, r.2 ≠ some r.1

/-- The last of them is `current_index_`, and its file is open. -/
structure Consistent (a : DailyCountArgs) (is : List Nat) (s : DailyCountSink) : Prop
    extends Indexed a is s where
  last : is.getLast? = some s.currentIndex
  fd : s.fd = some (a.makePath s.currentDate s.currentIndex)

variable {is : List Nat} {s : DailyCountSink}

theorem increasing_map_iff (date : Text) (his : ∀ i ∈ is, i < wordSize) :
    ((is.map (a.makeFilename date)).Pairwise fun x y => ∃ i j,
      a.extractIndex date x = .ok i ∧ a.extractIndex date y = .ok j ∧ i < j) ↔
      is.Pairwise (· < ·) := by
  rw [List.pairwise_map]
  refine List.Pairwise.iff_of_mem fun {i j} hi hj => ?_
  rw [a.extractIndex_makeFilename date (his i hi), a.extractIndex_makeFilename date (his j hj)]
  constructor
  · rintro ⟨k, l, hk, hl, hlt⟩
    rw [Except.ok.inj hk, Except.ok.inj hl]
    exact hlt
  · exact fun hlt => ⟨i, j, rfl, rfl, hlt⟩

theorem Consistent.bookkept (h : Consistent a is s) : Bookkept a s where
  increasing := by
    rw [h.files]
    exact (increasing_map_iff s.currentDate h.bounded).2 h.increasing
  last := by
    refine ⟨a.makeFilename s.currentDate s.currentIndex, ?_, h.fd⟩
    rw [h.files, List.getLast?_map, h.last]
    rfl
  kept := h.kept

theorem Indexed.with_index (h : Indexed a is s) (i : Nat) :
    Indexed a is { s with currentIndex := i } :=
  ⟨h.noFault, h.length, h.sep, h.files, h.increasing, h.bounded, h.kept⟩

theorem Indexed.opened (h : Indexed a is s) {i : Nat} (hi : i < wordSize) :
    ∃ d, measure (a.makePath s.currentDate i) (openFile (a.makePath s.currentDate i) s) =
        { s with
          fd := some (a.makePath s.currentDate i)
          failed := false
          currentSize := sizeOnDisk s.disk (a.makePath s.currentDate i)
          disk := d } ∧
      Tame a s.disk d := by
  obtain ⟨d, heq, hfiles, hd⟩ := measure_openFile h.noFault (a.makePath s.currentDate i)
  refine ⟨d, heq, hd, fun date hlen hnamed name hsep htodays hsome => ?_⟩
  rw [hfiles] at hsome
  exact (Tame.fopen h.noFault h.length h.sep hi).named date hlen hnamed name hsep htodays hsome

/-! ## `open_new_file_` -/

/-- The index that `open_new_file_` arrives at. -/
def nextIndex (s : DailyCountSink) : Nat := (s.currentIndex + 1) % wordSize

theorem nextIndex_first (h : s.currentIndex = 0) : nextIndex s = 1 := by
  rw [nextIndex, h]
  rfl

theorem nextIndex_lt (s : DailyCountSink) : nextIndex s < wordSize := Nat.mod_lt _ (by decide)

theorem openNewFile_def (s : DailyCountSink) :
    openNewFile a s =
      let p := a.makePath s.currentDate (nextIndex s)
      let opened := measure p (openFile p { s with currentIndex := nextIndex s })
      cleanupOldFiles a { opened with files := opened.files ++ [filename p] } := rfl

theorem openNewFile_eq (h : Indexed a is s) : ∃ n d,
    openNewFile a s =
      { s with
        currentIndex := nextIndex s
        currentSize := n
        files := (retained a.maxFiles (is ++ [nextIndex s])).map (a.makeFilename s.currentDate)
        fd := some (a.makePath s.currentDate (nextIndex s))
        failed := false
        disk := d
        removed := s.removed ++ (dropped a.maxFiles (is ++ [nextIndex s])).map fun i =>
          (a.makePath s.currentDate i, some (a.makePath s.currentDate (nextIndex s))) } ∧
      Tame a s.disk d := by
  obtain ⟨d, heq, htame⟩ := (h.with_index (nextIndex s)).opened (nextIndex_lt s)
  have hname : filename (a.makePath s.currentDate (nextIndex s)) =
      a.makeFilename s.currentDate (nextIndex s) :=
    filename_joinPath (a.sep_notMem_makeFilename h.sep _)
  have hmap : s.files ++ [a.makeFilename s.currentDate (nextIndex s)] =
      (is ++ [nextIndex s]).map (a.makeFilename s.currentDate) := by
    rw [List.map_append, h.files]
    rfl
  obtain ⟨d', heq', htame'⟩ := cleanupOldFiles_eq (a := a)
    (s := { s with
      currentIndex := nextIndex s
      currentSize := sizeOnDisk s.disk (a.makePath s.currentDate (nextIndex s))
      files := (is ++ [nextIndex s]).map (a.makeFilename s.currentDate)
      fd := some (a.makePath s.currentDate (nextIndex s))
      failed := false
      disk := d }) htame.noFault
  refine ⟨sizeOnDisk s.disk (a.makePath s.currentDate (nextIndex s)), d', ?_,
    htame.trans htame'⟩
  simp only [openNewFile_def, heq, hname, hmap, heq']
  simp only [retained_map, dropped_map, List.map_map]
  rfl

theorem Indexed.retained_bounded (h : Indexed a is s) :
    ∀ i ∈ retained a.maxFiles (is ++ [nextIndex s]), i < wordSize := by
  intro i hi
  rcases List.mem_append.1 ((retained_suffix _ _).subset hi) with hi | hi
  · exact h.bounded i hi
  · exact List.mem_singleton.1 hi ▸ nextIndex_lt s

/-- What is removed is not the new file, exactly if its index is not among those
given up. -/
theorem Indexed.removed_iff (h : Indexed a is s) :
    (∀ r ∈ (dropped a.maxFiles (is ++ [nextIndex s])).map fun i =>
      (a.makePath s.currentDate i, some (a.makePath s.currentDate (nextIndex s))),
      r.2 ≠ some r.1) ↔ nextIndex s ∉ dropped a.maxFiles (is ++ [nextIndex s]) := by
  constructor
  · exact fun hkept hmem => hkept _ (List.mem_map_of_mem hmem) rfl
  · intro hnot r hr heq
    obtain ⟨i, hi, rfl⟩ := List.mem_map.1 hr
    have hpath := Option.some_inj.1 heq
    have hindex := a.makePath_injective h.sep (nextIndex_lt s)
      (h.bounded i (mem_dropped_concat hi)) hpath
    exact hnot (hindex ▸ hi)

theorem openNewFile_consistent (h : Indexed a is s) (hadv : Advances a (· ∈ is) (nextIndex s)) :
    Consistent a (retained a.maxFiles (is ++ [nextIndex s])) (openNewFile a s) := by
  obtain ⟨n, d, heq, htame⟩ := openNewFile_eq h
  obtain ⟨hincreasing, hnot⟩ := (increasing_concat_iff h.increasing).2 hadv
  obtain ⟨k, hlast, _⟩ := retained_concat a.maxFiles is (nextIndex s)
  rw [heq]
  exact
    { noFault := htame.noFault
      length := h.length
      sep := h.sep
      files := rfl
      increasing := hincreasing
      bounded := h.retained_bounded
      kept := by
        intro r hr
        rcases List.mem_append.1 hr with hr | hr
        · exact h.kept r hr
        · exact h.removed_iff.2 hnot r hr
      last := by rw [hlast, List.getLast?_append]; rfl
      fd := rfl }

theorem openNewFile_bookkept_iff (h : Indexed a is s) :
    Bookkept a (openNewFile a s) ↔ Advances a (· ∈ is) (nextIndex s) := by
  constructor
  · intro hbook
    obtain ⟨n, d, heq, _⟩ := openNewFile_eq h
    rw [heq] at hbook
    refine (increasing_concat_iff h.increasing).1 ⟨?_, ?_⟩
    · exact (increasing_map_iff s.currentDate h.retained_bounded).1 hbook.increasing
    · exact h.removed_iff.1 fun r hr => hbook.kept r (List.mem_append_right _ hr)
  · exact fun hadv => (openNewFile_consistent h hadv).bookkept

theorem openNewFile_tame (h : Indexed a is s) : Tame a s.disk (openNewFile a s).disk := by
  obtain ⟨n, d, heq, htame⟩ := openNewFile_eq h
  rw [heq]
  exact htame

/-! ## `open_current_file_` -/

/-- A day without files gets the one of index 0. -/
def orFirst (is : List Nat) : List Nat := if is = [] then [0] else is

theorem openCurrentFile_eq (h : Indexed a is s) (hindex : s.currentIndex = is.getLast?.getD 0) :
    s.currentIndex < wordSize ∧ (orFirst is).getLast? = some s.currentIndex ∧
      ∃ d, openCurrentFile a s =
          { s with
            currentSize := sizeOnDisk s.disk (a.makePath s.currentDate s.currentIndex)
            files := (orFirst is).map (a.makeFilename s.currentDate)
            fd := some (a.makePath s.currentDate s.currentIndex)
            failed := false
            disk := d } ∧
        Tame a s.disk d := by
  have hlast : (orFirst is).getLast? = some s.currentIndex := by
    rw [orFirst, hindex]
    split
    · next hnil =>
        rw [hnil]
        rfl
    · next hne => rw [List.getLast?_eq_some_getLast hne, Option.getD_some]
  have hlt : s.currentIndex < wordSize := by
    rw [hindex]
    cases hcase : is.getLast? with
    | none => exact Nat.two_pow_pos 64
    | some i => exact h.bounded i (List.mem_of_getLast? hcase)
  obtain ⟨d, heq, htame⟩ := h.opened hlt
  have hname : filename (a.makePath s.currentDate s.currentIndex) =
      a.makeFilename s.currentDate s.currentIndex :=
    filename_joinPath (a.sep_notMem_makeFilename h.sep _)
  refine ⟨hlt, hlast, d, ?_, htame⟩
  simp only [openCurrentFile, heq, hname]
  rw [orFirst] at hlast ⊢
  split at hlast
  · next hnil =>
      have hzero : s.currentIndex = 0 := (Option.some_inj.1 hlast).symm
      rw [if_neg (by rw [h.files, hnil]; simp), if_pos hnil, h.files, hnil, hzero]
      rfl
  · next hne =>
      rw [if_pos (by rw [h.files, List.getLast?_map, hlast]; rfl), if_neg hne, h.files]

theorem orFirst_increasing (h : Indexed a is s) :
    (orFirst is).Pairwise (· < ·) ∧ ∀ i ∈ orFirst is, i < wordSize := by
  rw [orFirst]
  split
  · refine ⟨List.pairwise_singleton _ 0, fun i hi => ?_⟩
    rw [List.mem_singleton.1 hi]
    exact Nat.two_pow_pos 64
  · exact ⟨h.increasing, h.bounded⟩

theorem openCurrentFile_consistent (h : Indexed a is s)
    (hindex : s.currentIndex = is.getLast?.getD 0) :
    Consistent a (orFirst is) (openCurrentFile a s) := by
  obtain ⟨_, hlast, d, heq, htame⟩ := openCurrentFile_eq h hindex
  obtain ⟨hincreasing, hbounded⟩ := orFirst_increasing h
  rw [heq]
  exact ⟨⟨htame.noFault, h.length, h.sep, rfl, hincreasing, hbounded, h.kept⟩, hlast, rfl⟩

/-! ## Opening a day -/

theorem scan_indexed {ls : List Text} (hd : s.disk.NoFault) (hlen : s.currentDate.length = 10)
    (hsep : sep ∉ s.currentDate) (hkept : ∀ r ∈ s.removed, r.2 ≠ some r.1)
    (hnamed : a.Named s.currentDate s.disk) (hls : a.Lists s.disk ls) :
    ∃ is, (∀ i, i ∈ is ↔ a.Present s.currentDate s.disk i) ∧
      ∃ names, scanExistingFilesForToday a ls s = .ok () { s with files := names } ∧
        Indexed a is { s with files := names } := by
  obtain ⟨is, hsort, hincreasing, hmem⟩ := DailyCountArgs.scan_sorted hsep hnamed hls
  refine ⟨is, hmem, is.map (a.makeFilename s.currentDate), ?_, ?_⟩
  · simp only [scanExistingFilesForToday, hsort]
  · exact ⟨hd, hlen, hsep, rfl, hincreasing, fun i hi => ((hmem i).1 hi).1, hkept⟩

theorem lastIndex_eq (h : Indexed a is s) : lastIndex a s = .ok (is.getLast?.getD 0) := by
  rw [lastIndex, h.files, List.getLast?_map]
  cases hlast : is.getLast? with
  | none => rfl
  | some i => exact a.extractIndex_makeFilename _ (h.bounded i (List.mem_of_getLast? hlast))

/-- The sink opens the day with a new file. -/
def opensNew (a : DailyCountArgs) (is : List Nat) : Prop := a.rotateOnOpen = true ∧ is ≠ []

instance (a : DailyCountArgs) (is : List Nat) : Decidable (opensNew a is) :=
  inferInstanceAs (Decidable (_ ∧ _))

theorem openToday_eq (h : Indexed a is s) :
    openToday a s = .ok () (if opensNew a is then openNewFile a s
      else openCurrentFile a { s with currentIndex := is.getLast?.getD 0 }) := by
  have hiff : (a.rotateOnOpen = true ∧ s.files ≠ []) ↔ opensNew a is := by
    rw [opensNew, h.files, Ne, List.map_eq_nil_iff]
  rw [openToday, lastIndex_eq h]
  by_cases hnew : opensNew a is
  · rw [if_pos (hiff.2 hnew), if_pos hnew]
  · rw [if_neg fun hfiles => hnew (hiff.1 hfiles), if_neg hnew]

/-- What a day is opened with goes well: a new file has index 1. -/
def OpensWell (a : DailyCountArgs) (date : Text) (d : Disk Path) : Prop :=
  a.rotateOnOpen = true → Advances a (a.Present date d) 1

theorem opensWell_iff (hindex : s.currentIndex = 0) (date : Text)
    (hmem : ∀ i, i ∈ is ↔ a.Present date d i) :
    OpensWell a date d ↔ (opensNew a is → Advances a (· ∈ is) (nextIndex s)) := by
  have hthere : Advances a (a.Present date d) 1 ↔ Advances a (· ∈ is) 1 := by
    rw [Advances, Advances, hmem]
    simp only [hmem]
  rw [OpensWell, nextIndex_first hindex, hthere, opensNew]
  constructor
  · exact fun h hnew => h hnew.1
  · intro h hrotate
    by_cases hnil : is = []
    · exact .inl fun i hi => absurd hi (hnil ▸ List.not_mem_nil)
    · exact h ⟨hrotate, hnil⟩

/-- What the state is like when a day has been opened. The last index there can
be is current only if it was on the disk and is gone on with. -/
structure Opened (a : DailyCountArgs) (d : Disk Path) (is : List Nat) (s : DailyCountSink) :
    Prop extends Consistent a is s where
  full : s.currentIndex = wordSize - 1 → a.rotateOnOpen = false ∧
    a.Present s.currentDate d (wordSize - 1) ∧
    s.currentSize = sizeOnDisk d (a.makePath s.currentDate (wordSize - 1)) ∧
    (0 ∈ is → a.Present s.currentDate d 0)

theorem openToday_opened (h : Indexed a is s) (hindex : s.currentIndex = 0)
    (hmem : ∀ i, i ∈ is ↔ a.Present s.currentDate s.disk i) :
    ∃ s', openToday a s = .ok () s' ∧ s'.currentDate = s.currentDate ∧ Tame a s.disk s'.disk ∧
      (Bookkept a s' ↔ OpensWell a s.currentDate s.disk) ∧
      (OpensWell a s.currentDate s.disk → ∃ is', Opened a s.disk is' s') := by
  refine ⟨_, openToday_eq h, ?_⟩
  rw [opensWell_iff hindex s.currentDate hmem]
  split
  · next hnew =>
      obtain ⟨n, d, heq, htame⟩ := openNewFile_eq h
      refine ⟨by rw [heq], openNewFile_tame h, ?_, fun hwell => ?_⟩
      · rw [openNewFile_bookkept_iff h]
        exact ⟨fun hadv _ => hadv, fun hwell => hwell hnew⟩
      · refine ⟨_, openNewFile_consistent h (hwell hnew), fun hfull => ?_⟩
        rw [heq] at hfull
        exact absurd ((nextIndex_first hindex).symm.trans hfull) (by decide)
  · next hcurrent =>
      have h' := h.with_index (is.getLast?.getD 0)
      obtain ⟨_, hlast, d, heq, htame⟩ := openCurrentFile_eq h' rfl
      have hconsistent := openCurrentFile_consistent h' rfl
      refine ⟨by rw [heq], by rw [heq]; exact htame, ?_, fun _ => ⟨_, hconsistent, ?_⟩⟩
      · exact ⟨fun _ hnew => absurd hnew hcurrent, fun _ => hconsistent.bookkept⟩
      · rw [heq]
        intro hfull
        have hfullIndex : is.getLast?.getD 0 = wordSize - 1 := hfull
        have hne : is ≠ [] := by
          rintro rfl
          exact absurd hfullIndex (by decide)
        rw [orFirst, if_neg hne] at hlast ⊢
        refine ⟨?_, ?_, ?_, (hmem 0).1⟩
        · exact Bool.eq_false_iff.2 fun hrotate => hcurrent ⟨hrotate, hne⟩
        · exact (hmem _).1 (List.mem_of_getLast? (hlast.trans (congrArg some hfull)))
        · simp only [hfullIndex]

theorem openDay_opened {ls : List Text} (hd : s.disk.NoFault) (hlen : s.currentDate.length = 10)
    (hsep : sep ∉ s.currentDate) (hkept : ∀ r ∈ s.removed, r.2 ≠ some r.1)
    (hnamed : a.Named s.currentDate s.disk) (hls : a.Lists s.disk ls)
    (hindex : s.currentIndex = 0) :
    ∃ s', openDay a ls s = .ok () s' ∧ s'.currentDate = s.currentDate ∧ Tame a s.disk s'.disk ∧
      (Bookkept a s' ↔ OpensWell a s.currentDate s.disk) ∧
      (OpensWell a s.currentDate s.disk → ∃ is', Opened a s.disk is' s') := by
  obtain ⟨is, hmem, names, hscan, hindexed⟩ := scan_indexed hd hlen hsep hkept hnamed hls
  obtain ⟨s', hopen, hrest⟩ := openToday_opened hindexed hindex hmem
  exact ⟨s', (bind_of_ok hscan).trans hopen, hrest⟩

theorem construct_opened {ls : List Text} (zone : Zone) (t : Int) (hd : d.NoFault)
    (hls : a.Lists d ls) (hnamed : a.Named (localDateYyyyMmDd (zone.localtime t)) d) :
    ∃ s, construct a zone t ls d = .ok s ∧ Tame a d s.disk ∧
      (Bookkept a s ↔ OpensWell a (localDateYyyyMmDd (zone.localtime t)) d) ∧
      (OpensWell a (localDateYyyyMmDd (zone.localtime t)) d → ∃ is, Consistent a is s) := by
  obtain ⟨s, hopen, _, htame, hiff, hopened⟩ := openDay_opened (a := a)
    (s := ⟨localDateYyyyMmDd (zone.localtime t), 0, 0, [], none, false, d.mkdirs a.dir, []⟩)
    hd (length_localDate _) (sep_notMem_localDate _) (fun r hr => absurd hr List.not_mem_nil)
    hnamed (hls.mkdirs a.dir) rfl
  have hmkdirs : Tame a d (d.mkdirs a.dir) := .of_subset hd fun _ hp => hp
  refine ⟨s, by simp only [construct, hopen], hmkdirs.trans htame, hiff, fun hwell => ?_⟩
  obtain ⟨is, hopened⟩ := hopened hwell
  exact ⟨is, hopened.toConsistent⟩

/-! ## Writing -/

/-- The message takes the size to the limit. -/
def Fills (a : DailyCountArgs) (size : Nat) (msg : Bytes) : Prop :=
  0 < a.maxSize ∧ a.maxSize ≤ (size + ((body msg).length + 1)) % wordSize

theorem write_eq (hd : s.disk.NoFault) (b : Bytes) :
    ∃ d f, write b s = { s with disk := d, failed := f } ∧ Tame a s.disk d := by
  rw [write]
  split
  · exact ⟨s.disk, s.failed, rfl, .of_subset hd fun _ h => h⟩
  · split
    · exact ⟨s.disk, true, rfl, .of_subset hd fun _ h => h⟩
    · next p _ =>
        have htame := Tame.fwrite (a := a) hd p b
        split
        · next d heq => exact ⟨d, s.failed, rfl, by rw [heq] at htame; exact htame⟩
        · next d heq => exact ⟨d, true, rfl, by rw [heq] at htame; exact htame⟩

/-- Behind the last index there can be comes 0. -/
theorem Consistent.advances (h : Consistent a is s)
    (hfull : s.currentIndex = wordSize - 1 → a.maxFiles = 1 ∧ 0 ∉ is) :
    Advances a (· ∈ is) (nextIndex s) := by
  have hlt := h.bounded _ (List.mem_of_getLast? h.last)
  by_cases hlast : s.currentIndex = wordSize - 1
  · have hzero : nextIndex s = 0 := by
      rw [nextIndex, hlast]
      decide
    rw [hzero]
    exact .inr (hfull hlast)
  · have hnext : nextIndex s = s.currentIndex + 1 := Nat.mod_eq_of_lt (by omega)
    left
    intro i hi
    obtain ⟨before, rfl⟩ := List.getLast?_eq_some_iff.1 h.last
    rw [hnext]
    rcases List.mem_append.1 hi with hi | hi
    · have := (List.pairwise_append.1 h.increasing).2.2 i hi _ List.mem_cons_self
      omega
    · exact List.mem_singleton.1 hi ▸ Nat.lt_succ_self _

theorem writeMessage_consistent (h : Consistent a is s) (msg : Bytes)
    (hfull : Fills a s.currentSize msg → s.currentIndex = wordSize - 1 →
      a.maxFiles = 1 ∧ 0 ∉ is) :
    (∃ is', Consistent a is' (writeMessage a msg s)) ∧
      Tame a s.disk (writeMessage a msg s).disk := by
  obtain ⟨d, f, heq, htame⟩ := write_eq (a := a) h.noFault (body msg)
  obtain ⟨d', f', heq', htame'⟩ := write_eq (a := a)
    (s := { s with disk := d, failed := f }) htame.noFault [newline]
  have hindexed : ∀ (n : Nat) (fd : Option Path), Indexed a is
      { s with disk := d', failed := f', currentSize := n, fd := fd } := fun n fd =>
    ⟨htame'.noFault, h.length, h.sep, h.files, h.increasing, h.bounded, h.kept⟩
  simp only [writeMessage, heq, heq']
  split
  · next hfills =>
      have hadv : Advances a (· ∈ is) (nextIndex s) := h.advances (hfull hfills)
      exact ⟨⟨_, openNewFile_consistent (hindexed _ none) hadv⟩,
        (htame.trans htame').trans (openNewFile_tame (hindexed _ none))⟩
  · exact ⟨⟨is, hindexed _ _, h.last, h.fd⟩, htame.trans htame'⟩

end UempPlugin.Ref.DailyCountSink
