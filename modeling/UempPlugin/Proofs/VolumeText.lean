import UempPlugin.Proofs.VolumeRuns
import UempPlugin.Spec.VolumeLog

/-!
# The dated sink is a log of dated volumes

The volumes of a date are the files of that date in the folder, by index. As
long as the list of the sink is in order it is the list of all of them, and
then every function of the sink is the operation of the same name on the
volumes of the date that is open; those of the other dates stay as they are.

`current_size_` counts modulo 2^64, and so it is the size of the last volume up
to that.
-/

namespace UempPlugin.Ref.DailyCountSink

open UempPlugin.Lib UempPlugin.Spec

variable {a : DailyCountArgs} {d d' : Disk Path} {is : List Nat} {s : DailyCountSink}
  {date : Text}

/-! ## The volumes of a date -/

def bytesAt (d : Disk Path) (p : Path) : Bytes := ((d.files p).getD { bytes := [] }).bytes

/-- The indices of a date in the folder. -/
def indices (a : DailyCountArgs) (d : Disk Path) (date : Text) : List Nat :=
  (List.range wordSize).filter fun i => (d.files (a.makePath date i)).isSome

def volumes (a : DailyCountArgs) (d : Disk Path) (date : Text) : Volumes :=
  (indices a d date).map fun i => bytesAt d (a.makePath date i)

theorem mem_indices {i : Nat} : i ∈ indices a d date ↔ a.Present date d i := by
  rw [indices, List.mem_filter, List.mem_range, DailyCountArgs.Present]

/-- An increasing list of all the indices is that list. -/
theorem eq_indices (hincreasing : is.Pairwise (· < ·)) (hmem : ∀ i, i ∈ is ↔ a.Present date d i) :
    is = indices a d date := by
  have hrange : (indices a d date).Pairwise (· < ·) := List.pairwise_lt_range.filter _
  exact hincreasing.eq_of_mem_iff hrange fun i => (hmem i).trans mem_indices.symm

theorem volumes_eq (hincreasing : is.Pairwise (· < ·)) (hmem : ∀ i, i ∈ is ↔ a.Present date d i) :
    volumes a d date = is.map fun i => bytesAt d (a.makePath date i) := by
  rw [volumes, ← eq_indices hincreasing hmem]

theorem volumes_congr (h : ∀ i, i < wordSize →
    d'.files (a.makePath date i) = d.files (a.makePath date i)) :
    volumes a d' date = volumes a d date := by
  have hindices : indices a d' date = indices a d date :=
    List.filter_congr fun i hi => by rw [h i (List.mem_range.1 hi)]
  rw [volumes, volumes, hindices]
  refine List.map_congr_left fun i hi => ?_
  rw [bytesAt, h i (mem_indices.1 hi).1, bytesAt]

theorem volumes_mkdirs (p : Path) : volumes a (d.mkdirs p) date = volumes a d date :=
  volumes_congr fun _ _ => rfl

-- nobody is to count up to the largest index there can be
attribute [irreducible] indices

/-- Two dates have no path in common. -/
theorem makePath_date_ne {date' : Text} (hlen : date.length = 10) (hlen' : date'.length = 10)
    (hsep : sep ∉ date) (hsep' : sep ∉ date') (hne : date ≠ date') (i j : Nat) :
    a.makePath date i ≠ a.makePath date' j := by
  intro h
  have hname := joinPath_inj (a.sep_notMem_makeFilename hsep i)
    (a.sep_notMem_makeFilename hsep' j) h
  have htodays := a.isTodays_makeFilename date i
  rw [hname] at htodays
  exact hne (a.date_unique (hlen.trans hlen'.symm) htodays)

/-! ## What the calls do to the files -/

theorem cleanupLoop_files (hmax : a.maxFiles ≠ 0) :
    ∀ (names : List Text) (s : DailyCountSink), s.disk.NoFault → ∀ p,
      (cleanupLoop a names s).disk.files p =
        if p ∈ (dropped a.maxFiles names).map (joinPath a.dir) then none else s.disk.files p := by
  intro names
  induction names with
  | nil =>
      intro s _ p
      have hnone : ([] : List Text).length ≤ a.maxFiles := Nat.zero_le _
      rw [cleanupLoop, (retained_of_le hnone).1, List.map_nil, if_neg List.not_mem_nil]
  | cons name rest ih =>
      intro s hd p
      rw [cleanupLoop]
      split
      · next hmany =>
          rw [(dropped_cons (x := name) hmax hmany).1, List.map_cons]
          refine (ih _ (hd.of_fault (Disk.unlink_fault _ _)) p).trans ?_
          simp only [Disk.unlink_files hd, Function.update_apply, List.mem_cons]
          by_cases hrest : p ∈ (dropped a.maxFiles rest).map (joinPath a.dir)
          · rw [if_pos hrest, if_pos (.inr hrest)]
          · rw [if_neg hrest]
            by_cases hp : p = joinPath a.dir name
            · rw [if_pos hp, if_pos (.inl hp)]
            · rw [if_neg hp, if_neg (not_or.2 ⟨hp, hrest⟩)]
      · next hfew =>
          have hle : (name :: rest).length ≤ a.maxFiles := Nat.le_of_not_lt hfew
          rw [(retained_of_le hle).1, List.map_nil, if_neg List.not_mem_nil]

theorem cleanupOldFiles_files (hd : s.disk.NoFault) (p : Path) :
    (cleanupOldFiles a s).disk.files p =
      if p ∈ (dropped a.maxFiles s.files).map (joinPath a.dir) then none
      else s.disk.files p := by
  rw [cleanupOldFiles]
  split
  · next hzero => rw [hzero, dropped, if_pos rfl, List.map_nil, if_neg List.not_mem_nil]
  · next hmax => exact cleanupLoop_files hmax s.files s hd p

/-- A new file is there, empty if it was not there before, and what is given up
is gone. -/
theorem openNewFile_files (h : Indexed a is s) (p : Path) :
    (openNewFile a s).disk.files p =
      if p ∈ (dropped a.maxFiles (is ++ [nextIndex s])).map (a.makePath s.currentDate) then none
      else Function.update s.disk.files (a.makePath s.currentDate (nextIndex s))
        (some ((s.disk.files (a.makePath s.currentDate (nextIndex s))).getD { bytes := [] })) p := by
  obtain ⟨d, heq, hfiles, hd⟩ := measure_openFile
    (s := { s with currentIndex := nextIndex s }) h.noFault (a.makePath s.currentDate (nextIndex s))
  have hname : filename (a.makePath s.currentDate (nextIndex s)) =
      a.makeFilename s.currentDate (nextIndex s) :=
    filename_joinPath (a.sep_notMem_makeFilename h.sep _)
  have hmap : s.files ++ [a.makeFilename s.currentDate (nextIndex s)] =
      (is ++ [nextIndex s]).map (a.makeFilename s.currentDate) := by
    rw [List.map_append, h.files]
    rfl
  simp only [openNewFile_def, heq, hname, hmap]
  refine (cleanupOldFiles_files hd p).trans ?_
  simp only [dropped_map, List.map_map, hfiles, Disk.fopen_files h.noFault]
  rfl

/-- And it is measured before anything is given up. -/
theorem openNewFile_size (hd : s.disk.NoFault) :
    (openNewFile a s).failed = false ∧
      (openNewFile a s).currentSize =
        sizeOnDisk s.disk (a.makePath s.currentDate (nextIndex s)) := by
  obtain ⟨d, heq, -, hd'⟩ := measure_openFile
    (s := { s with currentIndex := nextIndex s }) hd (a.makePath s.currentDate (nextIndex s))
  simp only [openNewFile_def, heq]
  obtain ⟨d', heq', -⟩ := cleanupOldFiles_eq (a := a) (s := { s with
    currentIndex := nextIndex s
    currentSize := sizeOnDisk s.disk (a.makePath s.currentDate (nextIndex s))
    files := s.files ++ [filename (a.makePath s.currentDate (nextIndex s))]
    fd := some (a.makePath s.currentDate (nextIndex s))
    failed := false
    disk := d }) hd'
  rw [heq']
  exact ⟨rfl, rfl⟩

/-- The same, where the new file was not there. -/
theorem openNewFile_slot (h : Indexed a is s)
    (hthere : ∀ i, i ∈ is ↔ a.Present s.currentDate s.disk i)
    (hnew : nextIndex s ∉ is) {i : Nat} (hi : i < wordSize) :
    (openNewFile a s).disk.files (a.makePath s.currentDate i) =
      if i ∈ dropped a.maxFiles (is ++ [nextIndex s]) then none
      else if i = nextIndex s then some { bytes := [] }
      else s.disk.files (a.makePath s.currentDate i) := by
  have hinj : ∀ j, j < wordSize → a.makePath s.currentDate i = a.makePath s.currentDate j → i = j :=
    fun j hj heq => a.makePath_injective h.sep hi hj heq
  have hdropped : a.makePath s.currentDate i ∈
      (dropped a.maxFiles (is ++ [nextIndex s])).map (a.makePath s.currentDate) ↔
        i ∈ dropped a.maxFiles (is ++ [nextIndex s]) := by
    constructor
    · intro hmem
      obtain ⟨j, hj, heq⟩ := List.mem_map.1 hmem
      rw [hinj j (h.bounded j (mem_dropped_concat hj)) heq.symm]
      exact hj
    · exact List.mem_map_of_mem
  have hvacant : s.disk.files (a.makePath s.currentDate (nextIndex s)) = none := by
    by_contra hsome
    exact hnew ((hthere _).2 ⟨nextIndex_lt s, Option.isSome_iff_ne_none.2 hsome⟩)
  rw [openNewFile_files h, hvacant]
  simp only [hdropped]
  by_cases hlast : i = nextIndex s
  · subst hlast
    rw [Function.update_self, if_pos rfl]
    rfl
  · rw [Function.update_of_ne fun heq => hlast (hinj _ (nextIndex_lt s) heq), if_neg hlast]

/-! ## The list is the list of all -/

/-- The arguments, as the log knows them. -/
def cfg (a : DailyCountArgs) : VolumeCfg where
  full n := decide (0 < a.maxSize ∧ a.maxSize ≤ n % wordSize)
  maxFiles := a.maxFiles
  rotateOnOpen := a.rotateOnOpen

/-- `files_` has all the files of the date, the last of them is open for
writing, and `current_size_` is its size. -/
structure Filed (a : DailyCountArgs) (is : List Nat) (s : DailyCountSink) : Prop
    extends Consistent a is s where
  good : s.failed = false
  there : ∀ i, i ∈ is ↔ a.Present s.currentDate s.disk i
  size : s.currentSize % wordSize =
    (bytesAt s.disk (a.makePath s.currentDate s.currentIndex)).length % wordSize

/-- From `s` to `s'` the volumes of the date that is open became `v`, and no
others changed. -/
structure Turns (a : DailyCountArgs) (s : DailyCountSink) (v : Volumes) (s' : DailyCountSink) :
    Prop where
  date : s'.currentDate = s.currentDate
  volumes : volumes a s'.disk s.currentDate = v
  others : ∀ date, date.length = 10 → sep ∉ date → date ≠ s.currentDate →
    DailyCountSink.volumes a s'.disk date = DailyCountSink.volumes a s.disk date

theorem Filed.volumes (h : Filed a is s) :
    volumes a s.disk s.currentDate =
      is.map fun i => bytesAt s.disk (a.makePath s.currentDate i) :=
  volumes_eq h.increasing h.there

theorem Filed.current (h : Filed a is s) :
    (DailyCountSink.volumes a s.disk s.currentDate).current =
      bytesAt s.disk (a.makePath s.currentDate s.currentIndex) := by
  rw [h.volumes, Volumes.current, List.getLast?_map, h.last]
  rfl

theorem Turns.trans {s' s'' : DailyCountSink} {v v' : Volumes} (h : Turns a s v s')
    (h' : Turns a s' v' s'') : Turns a s v' s'' where
  date := h'.date.trans h.date
  volumes := by rw [← h.date]; exact h'.volumes
  others := fun date hlen hsep hne =>
    (h'.others date hlen hsep (by rw [h.date]; exact hne)).trans (h.others date hlen hsep hne)

/-- Touching no file but those of the date that is open. -/
theorem others_of_files {s' : DailyCountSink} (hlen : s.currentDate.length = 10)
    (hsep : sep ∉ s.currentDate)
    (h : ∀ p, (∀ i, p ≠ a.makePath s.currentDate i) → s'.disk.files p = s.disk.files p) :
    ∀ date, date.length = 10 → sep ∉ date → date ≠ s.currentDate →
      DailyCountSink.volumes a s'.disk date = DailyCountSink.volumes a s.disk date :=
  fun _ hlen' hsep' hne => volumes_congr fun i _ =>
    h _ fun j => makePath_date_ne hlen' hlen hsep' hsep hne i j

theorem openNewFile_filed (h : Indexed a is s)
    (hthere : ∀ i, i ∈ is ↔ a.Present s.currentDate s.disk i)
    (hadv : Advances a (· ∈ is) (nextIndex s)) :
    Filed a (retained a.maxFiles (is ++ [nextIndex s])) (openNewFile a s) ∧
      Turns a s (Volumes.start (cfg a) (volumes a s.disk s.currentDate)) (openNewFile a s) := by
  have hconsistent := openNewFile_consistent h hadv
  have hnew : nextIndex s ∉ is := by
    rcases hadv with habove | ⟨-, hnot⟩
    · exact fun hmem => Nat.lt_irrefl _ (habove _ hmem)
    · exact hnot
  obtain ⟨n, d, heq, -⟩ := openNewFile_eq h
  have hdate : (openNewFile a s).currentDate = s.currentDate := by rw [heq]
  have hindex : (openNewFile a s).currentIndex = nextIndex s := by rw [heq]
  have hslot := fun {i : Nat} (hi : i < wordSize) => openNewFile_slot h hthere hnew hi
  have hsplit := dropped_append_retained a.maxFiles (is ++ [nextIndex s])
  have hnodup : (dropped a.maxFiles (is ++ [nextIndex s]) ++
      retained a.maxFiles (is ++ [nextIndex s])).Nodup := by
    rw [hsplit, List.nodup_append]
    refine ⟨h.increasing.imp Nat.ne_of_lt, List.nodup_singleton _, fun i hi j hj heq => ?_⟩
    exact hnew (List.mem_singleton.1 hj ▸ heq ▸ hi)
  have hapart : ∀ i ∈ retained a.maxFiles (is ++ [nextIndex s]),
      i ∉ dropped a.maxFiles (is ++ [nextIndex s]) := fun i hi hmem =>
    (List.nodup_append.1 hnodup).2.2 i hmem i hi rfl
  have hthere' : ∀ i, i ∈ retained a.maxFiles (is ++ [nextIndex s]) ↔
      a.Present s.currentDate (openNewFile a s).disk i := by
    intro i
    constructor
    · intro hi
      have hlt := h.retained_bounded i hi
      refine ⟨hlt, ?_⟩
      rw [hslot hlt, if_neg (hapart i hi)]
      split
      · rfl
      · next hlast =>
          have hmem := (retained_suffix _ _).subset hi
          rcases List.mem_append.1 hmem with hmem | hmem
          · exact ((hthere i).1 hmem).2
          · exact absurd (List.mem_singleton.1 hmem) hlast
    · rintro ⟨hlt, hsome⟩
      rw [hslot hlt] at hsome
      split at hsome
      · cases hsome
      · next hkept =>
          have hmem : i ∈ is ++ [nextIndex s] := by
            split at hsome
            · next hlast => exact List.mem_append_right _ (List.mem_singleton.2 hlast)
            · exact List.mem_append_left _ ((hthere i).2 ⟨hlt, hsome⟩)
          rw [← hsplit] at hmem
          exact (List.mem_append.1 hmem).resolve_left hkept
  have hbytes : ∀ i ∈ retained a.maxFiles (is ++ [nextIndex s]),
      bytesAt (openNewFile a s).disk (a.makePath s.currentDate i) =
        if i = nextIndex s then [] else bytesAt s.disk (a.makePath s.currentDate i) := by
    intro i hi
    rw [bytesAt, hslot (h.retained_bounded i hi), if_neg (hapart i hi)]
    split
    · rfl
    · rfl
  have hlast : nextIndex s ∈ retained a.maxFiles (is ++ [nextIndex s]) := by
    obtain ⟨k, hkept, -⟩ := retained_concat a.maxFiles is (nextIndex s)
    rw [hkept]
    exact List.mem_append_right _ (List.mem_singleton_self _)
  obtain ⟨hgood, hsize⟩ := openNewFile_size (a := a) h.noFault (s := s)
  refine ⟨⟨hconsistent, hgood, by rw [hdate]; exact hthere', ?_⟩, hdate, ?_, ?_⟩
  · have hvacant : sizeOnDisk s.disk (a.makePath s.currentDate (nextIndex s)) = 0 := by
      have hnone : s.disk.files (a.makePath s.currentDate (nextIndex s)) = none := by
        by_contra hsome
        exact hnew ((hthere _).2 ⟨nextIndex_lt s, Option.isSome_iff_ne_none.2 hsome⟩)
      rw [sizeOnDisk, hnone]
      rfl
    rw [hsize, hvacant, hdate, hindex, hbytes _ hlast, if_pos rfl]
    rfl
  · have hincreasing := hconsistent.increasing
    rw [volumes_eq hincreasing hthere', volumes_eq h.increasing hthere, Volumes.start]
    have hmap : (is.map fun i => bytesAt s.disk (a.makePath s.currentDate i)) ++ [[]] =
        (is ++ [nextIndex s]).map fun i =>
          if i = nextIndex s then [] else bytesAt s.disk (a.makePath s.currentDate i) := by
      rw [List.map_append, List.map_singleton, if_pos rfl]
      congr 1
      refine List.map_congr_left fun i hi => ?_
      rw [if_neg fun heq : i = nextIndex s => hnew (heq ▸ hi)]
    rw [hmap, retained_map]
    exact List.map_congr_left hbytes
  · refine others_of_files h.length h.sep fun p hp => ?_
    rw [openNewFile_files h, if_neg, Function.update_of_ne (hp _)]
    intro hmem
    obtain ⟨i, -, heq⟩ := List.mem_map.1 hmem
    exact hp i heq.symm

/-! ## Opening a day -/

theorem openCurrentFile_disk (hd : s.disk.NoFault) :
    (openCurrentFile a s).disk.files =
        Function.update s.disk.files (a.makePath s.currentDate s.currentIndex)
          (some ((s.disk.files (a.makePath s.currentDate s.currentIndex)).getD { bytes := [] })) ∧
      (openCurrentFile a s).failed = false ∧
      (openCurrentFile a s).currentSize =
        sizeOnDisk s.disk (a.makePath s.currentDate s.currentIndex) := by
  obtain ⟨d, heq, hfiles, -⟩ := measure_openFile hd (a.makePath s.currentDate s.currentIndex)
  rw [Disk.fopen_files hd] at hfiles
  simp only [openCurrentFile, heq]
  split
  · exact ⟨hfiles, rfl, rfl⟩
  · exact ⟨hfiles, rfl, rfl⟩

/-- The last file is gone on with, and a date without files gets one. -/
theorem openCurrentFile_filed (h : Indexed a is s)
    (hthere : ∀ i, i ∈ is ↔ a.Present s.currentDate s.disk i)
    (hindex : s.currentIndex = is.getLast?.getD 0) :
    Filed a (orFirst is) (openCurrentFile a s) ∧
      Turns a s (if volumes a s.disk s.currentDate = [] then [[]]
        else volumes a s.disk s.currentDate) (openCurrentFile a s) := by
  have hconsistent := openCurrentFile_consistent h hindex
  obtain ⟨hlt, hlast, d, heq, -⟩ := openCurrentFile_eq h hindex
  have hdate : (openCurrentFile a s).currentDate = s.currentDate := by rw [heq]
  have hsame : (openCurrentFile a s).currentIndex = s.currentIndex := by rw [heq]
  obtain ⟨hfiles, hgood, hsize⟩ := openCurrentFile_disk (a := a) h.noFault
  have hbytes : ∀ i, i < wordSize →
      bytesAt (openCurrentFile a s).disk (a.makePath s.currentDate i) =
        bytesAt s.disk (a.makePath s.currentDate i) := by
    intro i hi
    rw [bytesAt, bytesAt, hfiles]
    by_cases hcurrent : a.makePath s.currentDate i = a.makePath s.currentDate s.currentIndex
    · rw [hcurrent, Function.update_self]
      rfl
    · rw [Function.update_of_ne hcurrent]
  have hthere' : ∀ i, i ∈ orFirst is ↔
      a.Present s.currentDate (openCurrentFile a s).disk i := by
    intro i
    rw [DailyCountArgs.Present, hfiles]
    by_cases hcurrent : i = s.currentIndex
    · subst hcurrent
      rw [Function.update_self]
      exact ⟨fun _ => ⟨hlt, rfl⟩, fun _ => List.mem_of_getLast? hlast⟩
    · have hmem : i ∈ orFirst is ↔ i ∈ is := by
        rw [orFirst] at hlast ⊢
        split at hlast
        · next hnil =>
            rw [if_pos hnil, hnil, List.mem_singleton]
            have hzero : s.currentIndex = 0 := (Option.some_inj.1 hlast).symm
            exact ⟨fun hi => absurd (hi.trans hzero.symm) hcurrent,
              fun hi => absurd hi List.not_mem_nil⟩
        · next hne => rw [if_neg hne]
      rw [hmem, hthere, DailyCountArgs.Present]
      refine and_congr_right fun hi => ?_
      rw [Function.update_of_ne fun heq => hcurrent (a.makePath_injective h.sep hi hlt heq)]
  refine ⟨⟨hconsistent, hgood, by rw [hdate]; exact hthere', ?_⟩, hdate, ?_, ?_⟩
  · rw [hsize, hdate, hsame, hbytes _ hlt, sizeOnDisk, bytesAt]
  · rw [volumes_eq hconsistent.increasing hthere', volumes_eq h.increasing hthere]
    rw [List.map_congr_left fun i hi => hbytes i (hconsistent.bounded i hi), orFirst]
    by_cases hnil : is = []
    · subst hnil
      have hnone : bytesAt s.disk (a.makePath s.currentDate 0) = [] := by
        have hvacant : s.disk.files (a.makePath s.currentDate 0) = none := by
          by_contra hsome
          exact List.not_mem_nil ((hthere 0).2 ⟨Nat.two_pow_pos 64,
            Option.isSome_iff_ne_none.2 hsome⟩)
        rw [bytesAt, hvacant]
        rfl
      rw [if_pos rfl, List.map_nil, if_pos rfl, List.map_singleton, hnone]
    · rw [if_neg hnil, if_neg fun hmap => hnil (List.map_eq_nil_iff.1 hmap)]
  · refine others_of_files h.length h.sep fun p hp => ?_
    rw [hfiles, Function.update_of_ne (hp _)]

/-- A date is opened as the log opens it. -/
theorem openDay_filed {ls : List Text} (hd : s.disk.NoFault) (hlen : s.currentDate.length = 10)
    (hsep : sep ∉ s.currentDate) (hkept : ∀ r ∈ s.removed, r.2 ≠ some r.1)
    (hnamed : a.Named s.currentDate s.disk) (hls : a.Lists s.disk ls)
    (hindex : s.currentIndex = 0) (hwell : OpensWell a s.currentDate s.disk) :
    ∃ s' is, openDay a ls s = .ok () s' ∧ Filed a is s' ∧
      Turns a s (Volumes.openDay (cfg a) (volumes a s.disk s.currentDate)) s' := by
  obtain ⟨is, hmem, names, hscan, hindexed⟩ := scan_indexed hd hlen hsep hkept hnamed hls
  have hempty : volumes a s.disk s.currentDate = [] ↔ is = [] := by
    rw [volumes_eq hindexed.increasing hmem, List.map_eq_nil_iff]
  have hopen := openToday_eq hindexed
  rw [opensWell_iff hindex s.currentDate hmem] at hwell
  rw [Volumes.openDay]
  by_cases hnew : opensNew a is
  · rw [if_pos hnew] at hopen
    obtain ⟨hfiled, hturns⟩ := openNewFile_filed hindexed hmem (hwell hnew)
    refine ⟨_, _, (bind_of_ok hscan).trans hopen, hfiled, hturns.date, ?_, hturns.others⟩
    rw [if_neg fun h => hnew.2 (hempty.1 h), if_pos (show (cfg a).rotateOnOpen = true from hnew.1)]
    exact hturns.volumes
  · rw [if_neg hnew] at hopen
    obtain ⟨hfiled, hturns⟩ := openCurrentFile_filed (hindexed.with_index _) hmem rfl
    refine ⟨_, _, (bind_of_ok hscan).trans hopen, hfiled, hturns.date, ?_, hturns.others⟩
    refine hturns.volumes.trans ?_
    by_cases hnil : volumes a s.disk s.currentDate = []
    · rw [if_pos hnil, if_pos hnil]
    · rw [if_neg hnil, if_neg hnil, if_neg]
      exact fun hrotate => hnew ⟨hrotate, fun h => hnil (hempty.2 h)⟩

/-! ## Writing -/

/-- What a message is in the file. -/
def line (msg : Bytes) : Bytes := body msg ++ [newline]

/-- Both writes go through. -/
theorem write_line {p : Path} {f : File} (hd : s.disk.NoFault) (hgood : s.failed = false)
    (hfd : s.fd = some p) (hf : s.disk.files p = some f) (msg : Bytes) :
    ∃ d, write [newline] (write (body msg) s) = { s with disk := d } ∧ d.NoFault ∧
      d.files = Function.update s.disk.files p
        (some { bytes := f.bytes ++ line msg, written := true }) := by
  have hfirst := Disk.append_files hf (body msg)
  have hd' : (s.disk.append p (body msg)).tick.NoFault :=
    hd.of_fault (Disk.append_fault s.disk p (body msg))
  have hthere : (s.disk.append p (body msg)).tick.files p =
      some { bytes := f.bytes ++ body msg, written := true } := by
    rw [Disk.tick_files, hfirst, Function.update_self]
  have hsecond := Disk.append_files hthere [newline]
  have hwrite : write (body msg) s = { s with disk := (s.disk.append p (body msg)).tick } := by
    rw [write, if_neg (by rw [hgood]; decide), hfd]
    simp only [Disk.fwrite_eq hd]
  refine ⟨((s.disk.append p (body msg)).tick.append p [newline]).tick, ?_, ?_, ?_⟩
  · rw [hwrite, write, if_neg (by show ¬s.failed = true; rw [hgood]; decide), hfd]
    simp only [Disk.fwrite_eq hd']
  · exact hd'.of_fault (Disk.append_fault _ _ _)
  · rw [Disk.tick_files, hsecond, Disk.tick_files, hfirst, Function.update_idem, line,
      List.append_assoc]

/-- The state when the line has been written, whatever becomes of the handle. -/
theorem written_filed (h : Filed a is s) (msg : Bytes) :
    ∃ d, write [newline] (write (body msg) s) = { s with disk := d } ∧
      Filed a is { s with
        disk := d
        currentSize := (s.currentSize + ((body msg).length + 1)) % wordSize } ∧
      Turns a s (Volumes.append (line msg) (volumes a s.disk s.currentDate))
        { s with disk := d } := by
  obtain ⟨ys, rfl⟩ := List.getLast?_eq_some_iff.1 h.last
  obtain ⟨hlt, hsome⟩ := (h.there s.currentIndex).1 (List.mem_append_right _ List.mem_cons_self)
  obtain ⟨f, hf⟩ := Option.isSome_iff_exists.1 hsome
  obtain ⟨d, hwrite, hd, hfiles⟩ := write_line h.noFault h.good h.fd hf msg
  have hother : ∀ {i}, i < wordSize → i ≠ s.currentIndex →
      d.files (a.makePath s.currentDate i) = s.disk.files (a.makePath s.currentDate i) := by
    intro i hi hne
    rw [hfiles, Function.update_of_ne]
    exact fun heq => hne (a.makePath_injective h.sep hi hlt heq)
  have hcurrent : d.files (a.makePath s.currentDate s.currentIndex) =
      some { bytes := f.bytes ++ line msg, written := true } := by
    rw [hfiles, Function.update_self]
  have hthere : ∀ i, i ∈ ys ++ [s.currentIndex] ↔ a.Present s.currentDate d i := by
    intro i
    rw [h.there i, DailyCountArgs.Present, DailyCountArgs.Present]
    refine and_congr_right fun hi => ?_
    by_cases hne : i = s.currentIndex
    · rw [hne, hf, hcurrent]
      exact Iff.rfl
    · rw [hother hi hne]
  refine ⟨d, hwrite, ?_, rfl, ?_, others_of_files h.length h.sep fun p hp => ?_⟩
  · refine ⟨⟨⟨hd, h.length, h.sep, h.files, h.increasing, h.bounded, h.kept⟩, h.last, h.fd⟩,
      h.good, hthere, ?_⟩
    have hsize := h.size
    have hbytes : bytesAt s.disk (a.makePath s.currentDate s.currentIndex) = f.bytes := by
      rw [bytesAt, hf, Option.getD_some]
    have hlen : (f.bytes ++ line msg).length = f.bytes.length + ((body msg).length + 1) := by
      rw [List.length_append, line, List.length_append, List.length_singleton]
    rw [hbytes] at hsize
    simp only [bytesAt, hcurrent, Option.getD_some, hlen, Nat.mod_mod]
    rw [Nat.add_mod, hsize, ← Nat.add_mod]
  · rw [volumes_eq h.increasing hthere, h.volumes, List.map_append, List.map_append,
      List.map_singleton, List.map_singleton, Volumes.append_concat]
    congr 1
    · refine List.map_congr_left fun i hi => ?_
      have hne : i ≠ s.currentIndex := fun heq => Nat.lt_irrefl i
        (heq ▸ (List.pairwise_append.1 h.increasing).2.2 i hi _ List.mem_cons_self)
      rw [bytesAt, hother (h.bounded i (List.mem_append_left _ hi)) hne, bytesAt]
    · rw [bytesAt, bytesAt, hcurrent, hf]
      rfl
  · show d.files p = s.disk.files p
    rw [hfiles, Function.update_of_ne (hp _)]

/-- A message is logged as the log logs its line. -/
theorem writeMessage_filed (h : Filed a is s) (msg : Bytes)
    (hfull : Fills a s.currentSize msg → s.currentIndex = wordSize - 1 →
      a.maxFiles = 1 ∧ 0 ∉ is) :
    (∃ is', Filed a is' (writeMessage a msg s)) ∧
      Turns a s (Volumes.log (cfg a) (line msg) (volumes a s.disk s.currentDate))
        (writeMessage a msg s) := by
  obtain ⟨d, hwrite, hfiled, hturns⟩ := written_filed h msg
  have hsize := hfiled.size
  have hcurrent := hfiled.current
  rw [← hcurrent, show volumes a d s.currentDate = _ from hturns.volumes] at hsize
  have hfills : (cfg a).full (Volumes.append (line msg)
      (volumes a s.disk s.currentDate)).current.length = true ↔ Fills a s.currentSize msg := by
    rw [cfg, decide_eq_true_iff, ← hsize, Fills, Nat.mod_mod]
  simp only [writeMessage, hwrite]
  by_cases hrotate : Fills a s.currentSize msg
  · rw [if_pos (show a.maxSize > 0 ∧ _ from hrotate), Volumes.log, if_pos (hfills.2 hrotate)]
    have hadv : Advances a (· ∈ is) (nextIndex s) := h.toConsistent.advances (hfull hrotate)
    have hindexed : Indexed a is { s with
        disk := d
        currentSize := (s.currentSize + ((body msg).length + 1)) % wordSize
        fd := none } :=
      ⟨hfiled.noFault, h.length, h.sep, h.files, h.increasing, h.bounded, h.kept⟩
    obtain ⟨hopened, hstarted⟩ := openNewFile_filed hindexed hfiled.there hadv
    refine ⟨⟨_, hopened⟩, hstarted.date, ?_, fun date hlen hsep hne => ?_⟩
    · refine hstarted.volumes.trans ?_
      exact congrArg (Volumes.start (cfg a)) hturns.volumes
    · exact (hstarted.others date hlen hsep hne).trans (hturns.others date hlen hsep hne)
  · rw [if_neg (show ¬(a.maxSize > 0 ∧ _) from hrotate), Volumes.log,
      if_neg fun h => hrotate (hfills.1 h)]
    exact ⟨⟨is, hfiled⟩, hturns.date, hturns.volumes, hturns.others⟩

end UempPlugin.Ref.DailyCountSink
