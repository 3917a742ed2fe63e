import UempPlugin.Proofs.CountChain

/-!
# Where a strict sink puts its messages

With strict counting, no rotation on opening and messages of one line each,
the files are a function of the messages alone: `layout` cuts them into blocks
of `max_count`, and restarts leave no trace.

The counter lives in memory and the truth is in the files. `Laid` ties them
together: the files are laid out, and an open log's counter is the length of
the block in progress. A restart forgets the counter but not the file, and the
strict scan of the reopened file recovers it, because one line was written for
each message.
-/

namespace UempPlugin.Spec.CountLog

open UempPlugin.Lib

/-! ## The layout, one message later

Throughout, `q` blocks are complete and `r` messages are in progress. -/

section

variable {M N q r : Nat} {ms : List Bytes}

theorem split_div (hlen : ms.length = M * q + r) (hr : r < M) : ms.length / M = q := by
  rw [hlen, Nat.mul_add_div (by omega), Nat.div_eq_of_lt hr, Nat.add_zero]

theorem split_mod (hlen : ms.length = M * q + r) (hr : r < M) : ms.length % M = r := by
  rw [hlen, Nat.mul_add_mod, Nat.mod_eq_of_lt hr]

/-- A complete block is not touched by a later message. -/
theorem block_append {j : Nat} (hlen : ms.length = M * q + r) (hj : j < q) (m : Bytes) :
    block M j (ms ++ [m]) = block M j ms := by
  have hfit : M * j + M ≤ M * q := by
    rw [← Nat.mul_succ]
    exact Nat.mul_le_mul_left _ hj
  rw [block, block, List.drop_append_of_le_length (by omega),
    List.take_append_of_le_length (by rw [List.length_drop]; omega)]

/-- The block in progress. -/
theorem block_last_length (hlen : ms.length = M * q + r) (hr : r < M) :
    (block M q ms).length = r := by
  rw [block, List.length_take, List.length_drop]
  omega

theorem block_last_append (hlen : ms.length = M * q + r) (hr : r < M) (m : Bytes) :
    block M q (ms ++ [m]) = block M q ms ++ [m] := by
  have hshort : (ms.drop (M * q)).length = r := by
    rw [List.length_drop]
    omega
  rw [block, block, List.drop_append_of_le_length (by omega),
    List.take_of_length_le (by rw [List.length_append, hshort, List.length_singleton]; omega),
    List.take_of_length_le (by rw [hshort]; omega)]

/-- A message that does not complete its block only changes slot 0. -/
theorem layout_append_rest (hlen : ms.length = M * q + r) (hr : r + 1 < M) (m : Bytes)
    (k : Nat) :
    layout M N (ms ++ [m]) k =
      if k = 0 then some ((block M q ms).flatten ++ m) else layout M N ms k := by
  have hlen' : (ms ++ [m]).length = M * q + (r + 1) := by
    rw [List.length_append, hlen]
    rfl
  rw [layout, layout, split_div hlen' hr, split_mod hlen' hr, split_div hlen (by omega)]
  by_cases hk : k = 0
  · rw [if_pos hk, if_pos hk, if_neg (by omega), block_last_append hlen (by omega),
      List.flatten_append, List.flatten_singleton]
  · rw [if_neg hk, if_neg hk, if_neg hk]
    by_cases hle : k ≤ N ∧ k ≤ q
    · rw [if_pos hle, if_pos hle, block_append hlen (by omega)]
    · rw [if_neg hle, if_neg hle]

/-- A message that completes its block shifts the layout and fills slot 1. -/
theorem layout_append_full (hlen : ms.length = M * q + r) (hr : r + 1 = M) (hN : 1 ≤ N)
    (m : Bytes) (k : Nat) :
    layout M N (ms ++ [m]) k =
      if k = 0 then none
      else if k = 1 then some ((block M q ms).flatten ++ m)
      else if k ≤ N then layout M N ms (k - 1) else none := by
  have hlen' : (ms ++ [m]).length = M * (q + 1) + 0 := by
    rw [List.length_append, hlen, Nat.mul_succ, List.length_singleton]
    omega
  rw [layout, split_div hlen' (by omega), split_mod hlen' (by omega)]
  by_cases hk0 : k = 0
  · rw [if_pos hk0, if_pos rfl, if_pos hk0]
  · rw [if_neg hk0, if_neg hk0]
    by_cases hk1 : k = 1
    · rw [if_pos ⟨by omega, by omega⟩, if_pos hk1, hk1, Nat.add_sub_cancel,
        block_last_append hlen (by omega), List.flatten_append, List.flatten_singleton]
    · rw [if_neg hk1, layout, if_neg (by omega : ¬k - 1 = 0), split_div hlen (by omega)]
      by_cases hkN : k ≤ N
      · rw [if_pos hkN]
        by_cases hle : k ≤ q + 1
        · rw [if_pos ⟨hkN, hle⟩, if_pos ⟨by omega, by omega⟩,
            show q + 1 - k = q - (k - 1) by omega, block_append hlen (by omega)]
        · rw [if_neg (by omega), if_neg (by omega)]
      · rw [if_neg (by omega), if_neg hkN]

end

/-! ## The invariant -/

/-- The files are laid out after the messages `ms`, and the counter of an open
log is the length of its block in progress. -/
structure Laid (c : CountCfg) (ms : List Bytes) (t : CountLog) : Prop where
  slots : ∀ k, (t.chain k).map File.bytes = layout c.maxCount c.maxFiles ms k
  count : t.count = if t.opened then ms.length % c.maxCount else 0

/-- What is assumed of the configuration. -/
structure Blocks (c : CountCfg) : Prop where
  strict : c.strict = true
  lazy : c.rotateOnOpen = false
  count_pos : 1 ≤ c.maxCount
  files_pos : 1 ≤ c.maxFiles

variable {c : CountCfg} {ms : List Bytes} {t : CountLog}

/-- Slot 0 holds the block in progress, also when that is empty. -/
theorem Laid.current (h : Laid c ms t) :
    Chain.slotBytes (t.chain 0) = (block c.maxCount (ms.length / c.maxCount) ms).flatten := by
  have h0 := h.slots 0
  rw [layout, if_pos rfl] at h0
  split at h0
  · next hr =>
      -- The block in progress is empty, and so is a missing file.
      have hnone := Option.map_eq_none_iff.1 h0
      have hdiv := Nat.div_add_mod ms.length c.maxCount
      have hlen : (block c.maxCount (ms.length / c.maxCount) ms).length = 0 := by
        rw [block, List.length_take, List.length_drop]
        omega
      rw [hnone, List.length_eq_zero_iff.1 hlen]
      rfl
  · obtain ⟨f, hf, hb⟩ := Option.map_eq_some_iff.1 h0
    rw [hf]
    exact hb

/-- One line was written for each message of the block. -/
theorem Laid.held (h : Laid c ms t) (hc : Blocks c) (hone : ∀ m ∈ ms, OneLine m) :
    t.held = ms.length % c.maxCount := by
  have hdiv := Nat.div_add_mod ms.length c.maxCount
  have hmod := Nat.mod_lt ms.length hc.count_pos
  rw [CountLog.held, h.current, lineCount_flatten, block_last_length hdiv.symm hmod]
  intro m hm
  exact hone m (List.mem_of_mem_drop (List.mem_of_mem_take hm))

/-- Opening finds the counter again, and slot 0 is there afterwards. -/
theorem Laid.openLog (h : Laid c ms t) (hc : Blocks c) (hone : ∀ m ∈ ms, OneLine m) :
    (openLog c t).count = ms.length % c.maxCount ∧
      Chain.slotBytes ((openLog c t).chain 0) = Chain.slotBytes (t.chain 0) ∧
      ∀ k, 1 ≤ k → (openLog c t).chain k = t.chain k := by
  have hmod := Nat.mod_lt ms.length hc.count_pos
  cases ho : t.opened with
  | true =>
      rw [openLog_of_opened ho]
      refine ⟨?_, rfl, fun _ _ => rfl⟩
      rw [h.count, ho]
      rfl
  | false =>
      have hscan : scan c t = { t with count := ms.length % c.maxCount } := by
        have hc0 : ¬((!c.strict) = true ∨ c.maxCount = 0) := by
          rintro (hs | hz)
          · rw [hc.strict] at hs
            cases hs
          · exact absurd hc.count_pos (by omega)
        rw [scan, if_neg hc0, h.held hc hone, if_neg (by omega)]
      rw [openLog_of_closed ho, hscan]
      exact ⟨rfl, Shelf.create_slotBytes t.toShelf, fun k hk => Shelf.create_backup t.toShelf hk⟩

/-- `m` was written behind the block in progress, and counted. -/
structure Written (c : CountCfg) (ms : List Bytes) (m : Bytes) (u : CountLog) : Prop where
  zero : u.chain 0 = some ⟨(block c.maxCount (ms.length / c.maxCount) ms).flatten ++ m, true⟩
  rest : ∀ k, 1 ≤ k → (u.chain k).map File.bytes = layout c.maxCount c.maxFiles ms k
  count : u.count = ms.length % c.maxCount + 1
  opened : u.opened = true

/-- Nothing rotates before the write: the counter stays below `maxCount`. -/
theorem Laid.written (h : Laid c ms t) (hc : Blocks c) (hone : ∀ m ∈ ms, OneLine m) (m : Bytes) :
    Written c ms m (append m (afterOpen c (CountLog.openLog c (beforeOpen c (begin c t))))) := by
  have hmod := Nat.mod_lt ms.length hc.count_pos
  have hbegin : begin c t = { t with begun := true } := by
    rw [begin]
    split
    · next hb => rw [← hb]
    · rw [if_neg (by rw [hc.lazy]; rintro ⟨h1, -⟩; cases h1)]
  have hb : Laid c ms (begin c t) := by
    rw [hbegin]
    exact ⟨h.slots, h.count⟩
  have hbefore : beforeOpen c (begin c t) = begin c t := by
    have hlt : (begin c t).count < c.maxCount := by
      rw [hb.count]
      split
      · exact hmod
      · exact hc.count_pos
    rw [beforeOpen, if_neg (by omega)]
  obtain ⟨hcount, hslot, hback⟩ := hb.openLog hc hone
  have hafter : afterOpen c (CountLog.openLog c (begin c t)) =
      CountLog.openLog c (begin c t) := by
    rw [afterOpen, if_neg (by rw [hcount]; omega)]
  rw [hbefore, hafter]
  generalize hu : CountLog.openLog c (begin c t) = u at hcount hslot hback
  refine ⟨?_, ?_, ?_, ?_⟩
  · rw [← hb.current, ← hslot]
    exact Shelf.append_zero m u.toShelf
  · intro k hk
    rw [← hb.slots, ← hback k hk]
    exact congrArg (Option.map File.bytes) (Shelf.append_backup m u.toShelf hk)
  · rw [← hcount]
    rfl
  · rw [← hu]
    exact openLog_opened c _

/-- The message completes its block, which moves to slot 1. -/
theorem Written.full {m : Bytes} {u : CountLog} (h : Written c ms m u) (hc : Blocks c)
    (hfull : ms.length % c.maxCount + 1 = c.maxCount) :
    Laid c (ms ++ [m]) (rotate c u) := by
  have hdiv := (Nat.div_add_mod ms.length c.maxCount).symm
  have hN : c.maxFiles ≠ 0 := by
    have := hc.files_pos
    omega
  refine ⟨fun k => ?_, rfl⟩
  rw [layout_append_full hdiv hfull hc.files_pos]
  show ((u.toShelf.rotate c.maxFiles).chain k).map File.bytes = _
  rw [Shelf.rotate_pos hN]
  show (Chain.shift c.maxFiles u.chain k).map File.bytes = _
  rw [Chain.shift]
  by_cases hk0 : k = 0
  · rw [if_pos hk0, if_pos hk0]
    rfl
  · rw [if_neg hk0, if_neg hk0]
    by_cases hk1 : k = 1
    · subst hk1
      rw [if_pos hc.files_pos, if_pos rfl, h.zero]
      rfl
    · rw [if_neg hk1]
      by_cases hkN : k ≤ c.maxFiles
      · rw [if_pos hkN, if_pos hkN, h.rest _ (by omega)]
      · rw [if_neg hkN, if_neg hkN, h.rest _ (by omega), layout, if_neg hk0,
          if_neg (by omega)]

/-- The message leaves its block unfinished. -/
theorem Written.unfinished {m : Bytes} {u : CountLog} (h : Written c ms m u)
    (hmore : ms.length % c.maxCount + 1 < c.maxCount) : Laid c (ms ++ [m]) u := by
  have hdiv := (Nat.div_add_mod ms.length c.maxCount).symm
  refine ⟨fun k => ?_, ?_⟩
  · rw [layout_append_rest hdiv hmore]
    by_cases hk0 : k = 0
    · subst hk0
      rw [if_pos rfl, h.zero]
      rfl
    · rw [if_neg hk0, h.rest _ (by omega)]
  · have hlen : (ms ++ [m]).length =
        c.maxCount * (ms.length / c.maxCount) + (ms.length % c.maxCount + 1) := by
      rw [List.length_append, List.length_singleton]
      omega
    rw [split_mod hlen hmore, h.opened, if_pos rfl, h.count]

/-- One message keeps the layout. -/
theorem Laid.log (h : Laid c ms t) (hc : Blocks c) (hone : ∀ m ∈ ms, OneLine m) (m : Bytes) :
    Laid c (ms ++ [m]) (log c m t) := by
  have hmod := Nat.mod_lt ms.length hc.count_pos
  have hwritten := h.written hc hone m
  rw [CountLog.log, afterWrite, hwritten.count]
  by_cases hfull : ms.length % c.maxCount + 1 ≥ c.maxCount
  · rw [if_pos hfull]
    exact hwritten.full hc (by omega)
  · rw [if_neg hfull]
    exact hwritten.unfinished (by omega)

/-- A restart keeps the layout: the counter of a closed log is 0. -/
theorem Laid.restart (h : Laid c ms t) : Laid c ms (restart t) := ⟨h.slots, rfl⟩

end UempPlugin.Spec.CountLog

namespace UempPlugin.Ref.CountSink

open UempPlugin.Lib UempPlugin.Spec

theorem laid_logStep {c : CountCfg} {ms : List Bytes} {t : CountLog} {e : Event}
    (h : CountLog.Laid c ms t) (hc : CountLog.Blocks c)
    (hone : ∀ m ∈ ms ++ messages [e], OneLine m) :
    CountLog.Laid c (ms ++ messages [e]) (logStep c t e) := by
  match e with
  | .log m => exact h.log hc (fun x hx => hone x (by simp [hx])) m
  | .restart =>
      rw [messages, messages, List.append_nil]
      exact h.restart

theorem laid_logRun {c : CountCfg} (hc : CountLog.Blocks c) :
    ∀ (evs : List Event) {ms : List Bytes} {t : CountLog}, CountLog.Laid c ms t →
      (∀ m ∈ ms ++ messages evs, OneLine m) →
      CountLog.Laid c (ms ++ messages evs) (logRun c t evs) := by
  intro evs
  induction evs with
  | nil =>
      intro ms t h _
      rw [messages, List.append_nil]
      exact h
  | cons e evs ih =>
      intro ms t h hone
      rw [messages_cons, ← List.append_assoc] at hone ⊢
      exact ih (laid_logStep h hc (fun m hm => hone m (List.mem_append_left _ hm))) hone

/-- The layout of a strict sink: after any run of one-line messages, restarts
anywhere, every file of the chain is what `layout` says, and so depends on the
messages alone. -/
theorem run_layout (a : CountArgs) (d : Disk Path) (hd : d.NoFault)
    (hstrict : a.strictCountOnOpen = true) (hlazy : a.rotateOnOpen = false)
    (hM : 1 ≤ a.maxCount) (hN : 1 ≤ a.maxFiles)
    (hempty : ∀ k, d.files (chainPath a.dir a.stem k) = none)
    (evs : List Event) (hone : ∀ m ∈ messages evs, OneLine m) :
    (∀ k, (chain a (run a (construct a d) evs) k).map File.bytes =
      CountLog.layout a.maxCount a.maxFiles (messages evs) k) ∧
    ∀ evs', messages evs' = messages evs →
      ∀ k, (chain a (run a (construct a d) evs') k).map File.bytes =
        (chain a (run a (construct a d) evs) k).map File.bytes := by
  have hc : CountLog.Blocks (cfg a) := ⟨hstrict, hlazy, hM, hN⟩
  have hstart : CountLog.Laid (cfg a) [] ((view a).see (construct a d)) := by
    refine ⟨fun k => ?_, rfl⟩
    show (d.files (chainPath a.dir a.stem k)).map File.bytes = _
    rw [hempty, CountLog.layout, List.length_nil, Nat.zero_mod, Nat.zero_div]
    split
    · rfl
    · rw [if_neg (by omega)]
      rfl
  have hlaid : ∀ es, messages es = messages evs →
      ∀ k, (chain a (run a (construct a d) es) k).map File.bytes =
        CountLog.layout a.maxCount a.maxFiles (messages evs) k := by
    intro es hes k
    have hrun := laid_logRun hc es hstart (by rw [hes]; exact hone)
    rw [← (run_next a es hd).see, hes] at hrun
    exact hrun.slots k
  exact ⟨hlaid evs rfl, fun es hes k => by rw [hlaid es hes k, hlaid evs rfl k]⟩

/-- Two messages per file and two backups, on an empty folder. -/
def paired : CountArgs where
  baseFilename := "logs/app.log".toList
  maxCount := 2
  maxFiles := 2
  strictCountOnOpen := true

def emptyDisk : Disk Path where
  files _ := none

theorem run_layout_paired :
    (∀ k, (chain paired (run paired (construct paired emptyDisk)
        [.log [97, newline], .restart, .log [98, newline], .log [99, newline]]) k).map File.bytes =
      CountLog.layout paired.maxCount paired.maxFiles
        (messages [.log [97, newline], .restart, .log [98, newline], .log [99, newline]]) k) ∧
    ∀ evs', messages evs' =
        messages [.log [97, newline], .restart, .log [98, newline], .log [99, newline]] →
      ∀ k, (chain paired (run paired (construct paired emptyDisk) evs') k).map File.bytes =
        (chain paired (run paired (construct paired emptyDisk)
          [.log [97, newline], .restart, .log [98, newline], .log [99, newline]]) k).map
          File.bytes :=
  run_layout paired emptyDisk (fun _ _ => rfl) rfl rfl
    (by decide) (by decide) (fun _ => rfl)
    [.log [97, newline], .restart, .log [98, newline], .log [99, newline]] (by decide)

end UempPlugin.Ref.CountSink
