import UempPlugin.Proofs.CountChain
import UempPlugin.Proofs.DailySizes
import UempPlugin.Proofs.RotatingFile
import UempPlugin.Proofs.VolumeNames

/-!
# What `rotating_file_sink` leaves on the disk

Over any run, with any number of restarts, the text is accounted for as it is
for the sinks of this repository, although this one truncates its file. The
size of a file is bounded as theirs is. Beyond them it never rotates an empty
file away, and a gap right below the oldest backup keeps that backup.
-/

namespace UempPlugin.Spec.RollingLog

open UempPlugin.Lib

variable (c : SizeCfg) {t : Shelf} {ms : List Bytes}

/-! ## The account of the text -/

theorem sheds_rotate (t : Shelf) : Shelf.Sheds c.maxFiles [] t (rotate c t) := by
  rw [rotate]
  split
  · next hN => exact Shelf.sheds_clear (.inl hN)
  · next hN =>
      have hpos : 1 ≤ c.maxFiles := by omega
      exact (Shelf.sheds_roll hpos t).trans (Shelf.sheds_clear (.inr (Shelf.roll_slot hpos t)))

theorem sheds_makeRoom (b : Bytes) (t : Shelf) :
    Shelf.Sheds c.maxFiles [] t (makeRoom c b t) := by
  rw [makeRoom]
  split
  · exact sheds_rotate c t
  · exact (Shelf.Owes.refl _ t).sheds

theorem sheds_step (op : SizeLog.Op) (t : Shelf) :
    Shelf.Sheds c.maxFiles (SizeLog.messages [op]).flatten t (step c t op) := by
  cases op with
  | log b =>
      rw [show (SizeLog.messages [.log b]).flatten = b from List.append_nil b]
      exact (sheds_makeRoom c b t).trans (Shelf.owes_append _ b _).sheds
  | turn =>
      have hcreate := (Shelf.owes_create c.maxFiles t).sheds
      show Shelf.Sheds c.maxFiles [] t (restart c t)
      rw [restart]
      split
      · exact hcreate.trans (sheds_rotate c t.create)
      · exact hcreate

theorem sheds_run : ∀ (ops : List SizeLog.Op) (t : Shelf),
    Shelf.Sheds c.maxFiles (SizeLog.messages ops).flatten t (run c t ops) := by
  intro ops
  induction ops with
  | nil => exact fun t => (Shelf.Owes.refl _ t).sheds
  | cons op ops ih =>
      intro t
      rw [SizeLog.messages_cons, List.flatten_append]
      exact (sheds_step c op t).trans (ih _)

/-! ## The files above the oldest backup -/

theorem rotate_above (t : Shelf) {k : Nat} (hk : c.maxFiles < k) :
    (rotate c t).chain k = t.chain k := by
  rw [rotate]
  split
  · exact Shelf.clear_backup t (by omega)
  · rw [Shelf.clear_backup _ (by omega), Shelf.roll_above hk]

theorem step_above (op : SizeLog.Op) (t : Shelf) {k : Nat} (hk : c.maxFiles < k) :
    (step c t op).chain k = t.chain k := by
  cases op with
  | log b =>
      show ((makeRoom c b t).append b).chain k = _
      rw [Shelf.append_backup b _ (by omega), makeRoom]
      split
      · exact rotate_above c t hk
      · rfl
  | turn =>
      show (restart c t).chain k = _
      rw [restart]
      split
      · rw [rotate_above c _ hk, Shelf.create_backup t (by omega)]
      · exact Shelf.create_backup t (by omega)

theorem run_above : ∀ (ops : List SizeLog.Op) (t : Shelf) {k : Nat}, c.maxFiles < k →
    (run c t ops).chain k = t.chain k := by
  intro ops
  induction ops with
  | nil => exact fun _ _ _ => rfl
  | cons op ops ih =>
      intro t k hk
      exact (ih (step c t op) hk).trans (step_above c op t hk)

/-! ## The files written, and the files rotated away -/

variable {c}

theorem all_step {P : File → Prop} (h : t.All P) (op : SizeLog.Op) (h0 : P { bytes := [] })
    (hlog : ∀ b, op = .log b → P ⟨Chain.slotBytes ((makeRoom c b t).chain 0) ++ b, true⟩) :
    (step c t op).All P := by
  have hrotate : ∀ {t : Shelf}, t.All P → (rotate c t).All P := by
    intro t ht
    rw [rotate]
    split
    · exact Shelf.all_clear ht h0
    · exact Shelf.all_clear (Shelf.all_roll ht) h0
  cases op with
  | log b =>
      refine Shelf.all_append ?_ (hlog b rfl)
      rw [makeRoom]
      split
      · exact hrotate h
      · exact h
  | turn =>
      show (restart c t).All P
      rw [restart]
      split
      · exact hrotate (Shelf.all_create h h0)
      · exact Shelf.all_create h h0

/-- After making room the message fits, or there is nothing else. -/
theorem makeRoom_size (b : Bytes) (t : Shelf) :
    size (makeRoom c b t) + b.length ≤ c.maxSize ∨
      Chain.slotBytes ((makeRoom c b t).chain 0) = [] := by
  rw [makeRoom]
  split
  · refine .inr ?_
    rw [rotate_zero]
    rfl
  · next h =>
      by_cases hfull : size t + b.length > c.maxSize
      · have hnone : size t = 0 := Nat.eq_zero_of_not_pos fun hpos => h ⟨hfull, hpos⟩
        exact .inr (List.length_eq_zero_iff.1 hnone)
      · exact .inl (by omega)

theorem fair_run : ∀ (ops : List SizeLog.Op) {t : Shelf} {ms : List Bytes},
    t.All (SizeLog.Fair c ms) → (run c t ops).All (SizeLog.Fair c (ms ++ SizeLog.messages ops)) := by
  intro ops
  induction ops with
  | nil =>
      intro t ms h
      rw [SizeLog.messages, List.append_nil]
      exact h
  | cons op ops ih =>
      intro t ms h
      rw [SizeLog.messages_cons, ← List.append_assoc]
      refine ih (all_step ?_ op SizeLog.fair_empty fun b hop _ => ?_)
      · exact fun k f hf hw => (h k f hf hw).imp_right (List.mem_append_left _)
      · subst hop
        rcases makeRoom_size b t with hfits | hnothing
        · refine .inl ?_
          rw [List.length_append]
          exact hfits
        · refine .inr (List.mem_append_right _ ?_)
          rw [hnothing]
          exact List.mem_singleton_self b

/-- No backup is empty. -/
def Filled (t : Shelf) : Prop := ∀ k f, t.chain (k + 1) = some f → f.bytes ≠ []

theorem filled_rotate (h : Filled t) (hsize : size t > 0) : Filled (rotate c t) := by
  have hall : t.All fun f => f.bytes ≠ [] := by
    intro k f hf
    cases k with
    | zero =>
        rw [size, hf, Chain.slotBytes_some] at hsize
        exact List.length_pos_iff.1 hsize
    | succ k => exact h k f hf
  intro k f hf
  rw [rotate] at hf
  split at hf
  · rw [Shelf.clear_backup _ (Nat.succ_ne_zero k)] at hf
    exact h k f hf
  · rw [Shelf.clear_backup _ (Nat.succ_ne_zero k)] at hf
    exact Shelf.all_roll hall (k + 1) f hf

theorem filled_step (h : Filled t) (op : SizeLog.Op) : Filled (step c t op) := by
  cases op with
  | log b =>
      intro k f hf
      replace hf : ((makeRoom c b t).append b).chain (k + 1) = some f := hf
      rw [Shelf.append_backup b _ (by omega), makeRoom] at hf
      split at hf
      · next hfull => exact filled_rotate h hfull.2 k f hf
      · exact h k f hf
  | turn =>
      have hcreate : Filled t.create := fun k f hf => by
        rw [Shelf.create_backup t (by omega)] at hf
        exact h k f hf
      show Filled (restart c t)
      rw [restart]
      split
      · next hopen => exact filled_rotate hcreate hopen.2
      · exact hcreate

theorem filled_run : ∀ (ops : List SizeLog.Op) {t : Shelf}, Filled t → Filled (run c t ops) := by
  intro ops
  induction ops with
  | nil => exact fun h => h
  | cons op ops ih => exact fun h => ih (filled_step h op)

end UempPlugin.Spec.RollingLog

namespace UempPlugin.Ref.RotatingSink

open UempPlugin.Lib UempPlugin.Spec

/-! ## Runs of the sink -/

/-- What an event is to the log. -/
def op : Event → SizeLog.Op
  | .log m => .log m
  | .restart => .turn

theorem messages_op (evs : List Event) : SizeLog.messages (evs.map op) = messages evs := by
  induction evs with
  | nil => rfl
  | cons e evs ih => cases e <;> simp [op, messages, SizeLog.messages, ih]

variable {a : RotatingArgs}

theorem step_refines (hsize : 1 ≤ a.maxSize) (hfiles : a.maxFiles ≤ 200000) {s : RotatingSink}
    (h : Good a s) (e : Event) :
    ∃ s', step a s e = .ok s' ∧ Good a s' ∧
      shelf a s'.disk = RollingLog.step (cfg a) (shelf a s.disk) (op e) ∧
      Keeps a s.disk s'.disk := by
  cases e with
  | log m =>
      obtain ⟨s', he, hgood, hshelf, hkeeps⟩ := sinkIt_spec h m
      exact ⟨s', by rw [step, he], hgood, hshelf, hkeeps⟩
  | restart =>
      obtain ⟨s', he, hgood, hshelf, hkeeps⟩ := construct_spec hsize hfiles h.noFault
      exact ⟨s', by rw [step, he], hgood, hshelf, hkeeps⟩

theorem run_refines (hsize : 1 ≤ a.maxSize) (hfiles : a.maxFiles ≤ 200000) :
    ∀ (evs : List Event) {s : RotatingSink}, Good a s →
      ∃ s', run a s evs = .ok s' ∧ Good a s' ∧
        shelf a s'.disk = RollingLog.run (cfg a) (shelf a s.disk) (evs.map op) ∧
        Keeps a s.disk s'.disk := by
  intro evs
  induction evs with
  | nil => exact fun {s} h => ⟨s, rfl, h, rfl, fun _ _ => rfl⟩
  | cons e evs ih =>
      intro s h
      obtain ⟨s', he, hgood, hshelf, hkeeps⟩ := step_refines hsize hfiles h e
      obtain ⟨s'', he', hgood', hshelf', hkeeps'⟩ := ih hgood
      refine ⟨s'', ?_, hgood', ?_, hkeeps.trans hkeeps'⟩
      · rw [run, he]
        exact he'
      · rw [hshelf', hshelf]
        rfl

/-- From its construction on. -/
theorem start_refines (hsize : 1 ≤ a.maxSize) (hfiles : a.maxFiles ≤ 200000) {d : Disk Path}
    (hd : d.NoFault) (evs : List Event) :
    ∃ s0 s, construct a d = .ok s0 s0.disk ∧ run a s0 evs = .ok s ∧ Good a s ∧
      shelf a s.disk = RollingLog.run (cfg a) (shelf a d) (.turn :: evs.map op) ∧
      Keeps a d s.disk := by
  obtain ⟨s0, he0, hgood0, hshelf0, hkeeps0⟩ := construct_spec hsize hfiles hd
  obtain ⟨s, he, hgood, hshelf, hkeeps⟩ := run_refines hsize hfiles evs hgood0
  refine ⟨s0, s, he0, he, hgood, ?_, hkeeps0.trans hkeeps⟩
  rw [hshelf, hshelf0]
  rfl

theorem messages_start (evs : List Event) :
    SizeLog.messages (.turn :: evs.map op) = messages evs := messages_op evs

/-- Nothing is thrown in any run. The text of the chain is the text found
followed by all messages, less whole files destroyed, which are the oldest; and
no file but the current one and the `maxFiles` backups is touched. -/
theorem rotating_conserves (a : RotatingArgs) (hsize : 1 ≤ a.maxSize)
    (hfiles : a.maxFiles ≤ 200000) (d : Disk Path) (hd : d.NoFault) (evs : List Event) :
    ∃ s0 s, construct a d = .ok s0 s0.disk ∧ run a s0 evs = .ok s ∧
      (∃ dropped : List File,
        s.disk.lost = d.lost ++ dropped ∧
          Chain.content a.maxFiles (Disk.chain (calcPath a.baseFilename) d) ++
              (messages evs).flatten =
            (dropped.map File.bytes).flatten ++
              Chain.content a.maxFiles (Disk.chain (calcPath a.baseFilename) s.disk)) ∧
      ∀ p, (∀ k, k ≤ a.maxFiles → p ≠ calcPath a.baseFilename k) →
        s.disk.files p = d.files p := by
  obtain ⟨s0, s, he0, he, -, hshelf, hkeeps⟩ := start_refines hsize hfiles hd evs
  have hsheds := RollingLog.sheds_run (cfg a) (.turn :: evs.map op) (shelf a d)
  rw [← hshelf, messages_start] at hsheds
  refine ⟨s0, s, he0, he, hsheds, fun p hp => ?_⟩
  by_cases hon : ∃ k, p = calcPath a.baseFilename k
  · obtain ⟨k, rfl⟩ := hon
    have hk : a.maxFiles < k := by
      by_contra hle
      exact hp k (by omega) rfl
    have habove := RollingLog.run_above (cfg a) (.turn :: evs.map op) (shelf a d) hk
    rw [← hshelf] at habove
    exact habove
  · exact hkeeps p fun k hk => hon ⟨k, hk⟩

/-- Five bytes a file and one backup, over a folder with a second one. -/
def small : RotatingArgs where
  baseFilename := "logs/app.log".toList
  maxSize := 5
  maxFiles := 1
  rotateOnOpen := true

def used : Disk Path where
  files p :=
    if p = "logs/app.log".toList then some { bytes := [97, 98] }
    else if p = "logs/app.2.log".toList then some { bytes := [99] }
    else none

theorem rotating_conserves_small :
    ∃ s0 s, construct small used = .ok s0 s0.disk ∧
      run small s0 [.log [100, 101, 102], .log [103, 104, 105], .restart, .log [106]] = .ok s ∧
      (∃ dropped : List File,
        s.disk.lost = used.lost ++ dropped ∧
          Chain.content small.maxFiles (Disk.chain (calcPath small.baseFilename) used) ++
              (messages [.log [100, 101, 102], .log [103, 104, 105], .restart,
                .log [106]]).flatten =
            (dropped.map File.bytes).flatten ++
              Chain.content small.maxFiles (Disk.chain (calcPath small.baseFilename) s.disk)) ∧
      ∀ p, (∀ k, k ≤ small.maxFiles → p ≠ calcPath small.baseFilename k) →
        s.disk.files p = used.files p :=
  rotating_conserves small (by decide) (by decide) used (fun _ _ => rfl) _

/-- A file the sink has written to is within the limit or holds one message,
the current file ends with the last message, and no empty file is ever rotated
away. -/
theorem rotating_sizes (a : RotatingArgs) (hsize : 1 ≤ a.maxSize) (hfiles : a.maxFiles ≤ 200000)
    (d : Disk Path) (hd : d.NoFault) (evs : List Event) :
    ∃ s0 s, construct a d.observe = .ok s0 s0.disk ∧ run a s0 evs = .ok s ∧
      (∀ k f, s.disk.files (calcPath a.baseFilename k) = some f → f.written = true →
        f.bytes.length ≤ a.maxSize ∨ f.bytes ∈ messages evs) ∧
      (∀ m, evs.getLast? = some (.log m) →
        ∃ f, s.disk.files a.baseFilename = some f ∧ m <:+ f.bytes) ∧
      ((∀ k f, d.files (calcPath a.baseFilename (k + 1)) = some f → f.bytes ≠ []) →
        ∀ k f, s.disk.files (calcPath a.baseFilename (k + 1)) = some f → f.bytes ≠ []) := by
  have hobserve : d.observe.NoFault := hd
  obtain ⟨s0, s, he0, he, -, hshelf, -⟩ := start_refines hsize hfiles hobserve evs
  have hfresh : (shelf a d.observe).All (SizeLog.Fair (cfg a) []) := by
    intro k f hf
    obtain ⟨g, -, rfl⟩ := Option.map_eq_some_iff.1 hf
    exact fun hw => by cases hw
  refine ⟨s0, s, he0, he, ?_, ?_, ?_⟩
  · have hfair := RollingLog.fair_run (.turn :: evs.map op) hfresh
    rw [← hshelf, messages_start] at hfair
    exact hfair
  · intro m hlast
    obtain ⟨before, rfl⟩ := List.getLast?_eq_some_iff.1 hlast
    rw [List.map_append, ← List.cons_append, RollingLog.run, List.foldl_append] at hshelf
    refine ⟨_, (congrFun (congrArg Shelf.chain hshelf) 0).trans (Shelf.append_zero m _), ?_⟩
    exact List.suffix_append _ _
  · intro hfull
    have hfilled : RollingLog.Filled (shelf a d.observe) := by
      intro k f hf
      obtain ⟨g, hg, rfl⟩ := Option.map_eq_some_iff.1 hf
      exact hfull k g hg
    have hrun := RollingLog.filled_run (c := cfg a) (.turn :: evs.map op) hfilled
    rw [← hshelf] at hrun
    exact hrun

theorem rotating_sizes_small :
    ∃ s0 s, construct small used.observe = .ok s0 s0.disk ∧
      run small s0 [.log [100, 101, 102], .log [], .log [103, 104, 105]] = .ok s ∧
      (∀ k f, s.disk.files (calcPath small.baseFilename k) = some f → f.written = true →
        f.bytes.length ≤ small.maxSize ∨
          f.bytes ∈ messages [.log [100, 101, 102], .log [], .log [103, 104, 105]]) ∧
      (∀ m, [Event.log [100, 101, 102], .log [], .log [103, 104, 105]].getLast? =
          some (.log m) → ∃ f, s.disk.files small.baseFilename = some f ∧ m <:+ f.bytes) ∧
      ((∀ k f, used.files (calcPath small.baseFilename (k + 1)) = some f → f.bytes ≠ []) →
        ∀ k f, s.disk.files (calcPath small.baseFilename (k + 1)) = some f → f.bytes ≠ []) :=
  rotating_sizes small (by decide) (by decide) used (fun _ _ => rfl) _

/-! ## The cascade and the shift -/

theorem joinPath_append (dir : Text) {x : Text} (hx : x ≠ []) (y : Text) :
    joinPath dir (x ++ y) = joinPath dir x ++ y := by
  have hhead : (x ++ y).head? = x.head? := List.head?_append_of_ne_nil x hx
  rw [joinPath, joinPath, hhead]
  split
  · rfl
  · split
    · rw [List.append_assoc]
    · rw [List.append_assoc, List.cons_append]

theorem getLast_joinPath (dir : Text) {x : Text} (hx : x ≠ []) :
    (joinPath dir x).getLast? = x.getLast? := by
  obtain ⟨ys, c, rfl⟩ := (List.eq_nil_or_concat x).resolve_left hx
  rw [joinPath]
  split
  · rfl
  · split
    · simp
    · rw [List.append_cons, List.getLast?_append]
      simp

/-- The last four characters of a log file are its extension. -/
theorem splitByExtension_log {base : Text} (hne : base ≠ []) (hlast : base.getLast? ≠ some sep) :
    Log.splitByExtension (base ++ extension) = (base, extension) := by
  have hext : ((base ++ extension).reverse.takeWhile (· ≠ '.')).reverse = ['l', 'o', 'g'] := by
    rw [List.reverse_append]
    rfl
  have hbase : (base ++ extension).take ((base ++ extension).length - 3 - 1) = base := by
    rw [List.length_append, show base.length + extension.length - 3 - 1 = base.length from rfl,
      List.take_left]
  have hdot : '.' ∈ base ++ extension := List.mem_append_right _ (by decide)
  simp only [Log.splitByExtension, hext]
  rw [show (['l', 'o', 'g'] : Text).length = 3 from rfl, hbase, if_neg]
  · rfl
  · simp [hdot, hne, hlast]
    decide

/-- Over a base file of the count sink, the names are the same. -/
theorem calcPath_basePath (b : CountArgs) (hstem : b.stem ≠ []) :
    calcPath b.basePath = chainPath b.dir b.stem := by
  have hsplit : b.basePath = joinPath b.dir b.stem ++ extension := joinPath_append b.dir hstem _
  have hne : joinPath b.dir b.stem ≠ [] := by
    intro h
    have hlast := getLast_joinPath b.dir hstem
    rw [h] at hlast
    exact hstem (List.getLast?_eq_none_iff.1 hlast.symm)
  have hsep : sep ∉ b.stem := by
    simp only [CountArgs.stem]
    split
    · exact fun h => sep_notMem_filename _ (List.mem_of_mem_take h)
    · exact sep_notMem_filename _
  have hlast : (joinPath b.dir b.stem).getLast? ≠ some sep := by
    rw [getLast_joinPath b.dir hstem]
    exact fun h => hsep (List.mem_of_getLast? h)
  funext k
  cases k with
  | zero => rfl
  | succ k =>
      rw [calcPath, if_neg (Nat.succ_ne_zero k), hsplit, splitByExtension_log hne hlast]
      show _ = joinPath b.dir (b.stem ++ '.' :: toStr (k + 1) ++ extension)
      rw [List.append_assoc, joinPath_append b.dir hstem, ← List.append_assoc]

/-- Where no call fails, the two kinds of rotation leave the same backups if
and only if there is a file right below the oldest backup, or no oldest
backup. Over a gap there, one keeps the oldest backup and the other deletes it. -/
theorem rolls_as_shift_iff (a : RotatingArgs) (b : CountArgs) (hname : a.baseFilename = b.basePath)
    (hstem : b.stem ≠ []) (hmax : a.maxFiles = b.maxFiles) (hN : 1 ≤ a.maxFiles)
    (s : RotatingSink) (t : CountSink) (hs : s.disk.NoFault) (ht : t.disk.NoFault)
    (hfiles : s.disk.files = t.disk.files) :
    ∃ s', rotate a s = .ok () s' ∧
      ((∀ p, p ≠ a.baseFilename →
          s'.disk.files p = (CountSink.rotateFiles b t).disk.files p) ↔
        ((s.disk.files (calcPath a.baseFilename (a.maxFiles - 1))).isSome ∨
          s.disk.files (calcPath a.baseFilename a.maxFiles) = none)) ∧
      (s.disk.files (calcPath a.baseFilename (a.maxFiles - 1)) = none →
        s'.disk.files (calcPath a.baseFilename a.maxFiles) =
            s.disk.files (calcPath a.baseFilename a.maxFiles) ∧
          (CountSink.rotateFiles b t).disk.files (calcPath a.baseFilename a.maxFiles) = none) := by
  obtain ⟨s', he, hleft, -⟩ := rotate_spec (a := a) hs
  refine ⟨s', he, ?_⟩
  have hpath : chainPath b.dir b.stem = calcPath a.baseFilename := by
    rw [hname, calcPath_basePath b hstem]
  rw [CountSink.rotateFiles_eq, hpath, ← hmax]
  obtain ⟨-, hframe⟩ := Disk.rotateChain_frame (injective (a := a)) ht a.maxFiles
  have hshift := congrArg Shelf.chain (Disk.rotateChain_shelf (injective (a := a)) ht a.maxFiles)
  rw [Shelf.rotate_pos (by omega)] at hshift
  have hroll := congrArg Shelf.chain hleft.shelf
  rw [RollingLog.rotate, if_neg (show ¬(cfg a).maxFiles = 0 by show ¬a.maxFiles = 0; omega)] at hroll
  have hsame : Disk.chain (calcPath a.baseFilename) t.disk =
      Disk.chain (calcPath a.baseFilename) s.disk := by
    funext k
    exact (congrFun hfiles _).symm
  have hleftSlot : ∀ k, s'.disk.files (calcPath a.baseFilename (k + 1)) =
      Chain.roll a.maxFiles (Disk.chain (calcPath a.baseFilename) s.disk) (k + 1) := by
    intro k
    refine (congrFun hroll (k + 1)).trans ?_
    rw [Shelf.clear_backup _ (Nat.succ_ne_zero k)]
    exact congrFun (Shelf.roll_chain hN _) (k + 1)
  have hrightSlot : ∀ k, (t.disk.rotateChain (calcPath a.baseFilename) a.maxFiles).files
      (calcPath a.baseFilename (k + 1)) =
      Chain.shift a.maxFiles (Disk.chain (calcPath a.baseFilename) s.disk) (k + 1) := by
    intro k
    rw [← hsame]
    exact congrFun hshift (k + 1)
  have hgap : s.disk.files (calcPath a.baseFilename (a.maxFiles - 1)) = none →
      s'.disk.files (calcPath a.baseFilename a.maxFiles) =
          s.disk.files (calcPath a.baseFilename a.maxFiles) ∧
        (t.disk.rotateChain (calcPath a.baseFilename) a.maxFiles).files
          (calcPath a.baseFilename a.maxFiles) = none := by
    intro hnone
    obtain ⟨hkept, hempty⟩ :=
      Chain.roll_gap (c := Disk.chain (calcPath a.baseFilename) s.disk) hN hnone
    obtain ⟨n, hn⟩ : ∃ n, a.maxFiles = n + 1 := ⟨a.maxFiles - 1, by omega⟩
    have hl := hleftSlot n
    have hr := hrightSlot n
    rw [← hn] at hl hr
    exact ⟨hl.trans hkept, hr.trans hempty⟩
  refine ⟨Iff.trans ?_ (Chain.roll_eq_shift_iff
    (c := Disk.chain (calcPath a.baseFilename) s.disk) hN), hgap⟩
  constructor
  · intro heq
    funext k
    cases k with
    | zero =>
        show Chain.roll a.maxFiles (shelf a s.disk).chain 0 = none
        rw [← Shelf.roll_chain hN]
        exact Shelf.roll_slot hN _
    | succ k =>
        have hne : calcPath a.baseFilename (k + 1) ≠ a.baseFilename := fun h =>
          absurd (injective (h : _ = calcPath a.baseFilename 0)) (Nat.succ_ne_zero k)
        rw [← hleftSlot, ← hrightSlot]
        exact heq _ hne
  · intro heq p hp
    by_cases hon : ∃ k, p = calcPath a.baseFilename k
    · obtain ⟨k, rfl⟩ := hon
      cases k with
      | zero => exact absurd rfl hp
      | succ k => rw [hleftSlot, heq, ← hrightSlot]
    · have hoff : ∀ k, p ≠ calcPath a.baseFilename k := fun k hk => hon ⟨k, hk⟩
      rw [hleft.keeps p hoff, hframe p hoff, hfiles]

/-- A second backup of two over a gap. -/
theorem rolls_as_shift_used :
    let a : RotatingArgs := { small with maxFiles := 2 }
    let b : CountArgs := { baseFilename := "logs/app".toList, maxCount := 1, maxFiles := 2 }
    let t : CountSink := ⟨0, false, true, none, used⟩
    ∃ s', rotate a ⟨2, none, used⟩ = .ok () s' ∧
      ((∀ p, p ≠ a.baseFilename → s'.disk.files p = (CountSink.rotateFiles b t).disk.files p) ↔
        ((used.files (calcPath a.baseFilename (a.maxFiles - 1))).isSome ∨
          used.files (calcPath a.baseFilename a.maxFiles) = none)) ∧
      (used.files (calcPath a.baseFilename (a.maxFiles - 1)) = none →
        s'.disk.files (calcPath a.baseFilename a.maxFiles) =
            used.files (calcPath a.baseFilename a.maxFiles) ∧
          (CountSink.rotateFiles b t).disk.files (calcPath a.baseFilename a.maxFiles) = none) ∧
      used.files (calcPath a.baseFilename 1) = none ∧
      (used.files (calcPath a.baseFilename 2)).isSome := by
  intro a b t
  obtain ⟨s', he, hiff, hgap⟩ := rolls_as_shift_iff a b (by decide +kernel) (by decide +kernel) rfl
    (by decide) ⟨2, none, used⟩ t (fun _ _ => rfl) (fun _ _ => rfl) rfl
  exact ⟨s', he, hiff, hgap, by decide +kernel, by decide +kernel⟩

end UempPlugin.Ref.RotatingSink
