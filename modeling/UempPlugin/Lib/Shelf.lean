import UempPlugin.Lib.Chain

/-!
# Shelves: a rotation chain and what fell off it

A `Shelf` is a chain of files together with the files it has given up. Three
things happen to it: it is rotated, its current file is created, and text is
appended to the current file. A rotating log is a shelf with a rule for when
to do which.

Two facts hold for every such rule and are proved here once. `Owes` is the
account of the text: read oldest slot first, the shelf afterwards is the shelf
before with the appended text at the end, less whole files given up from the
front. `All` is a property of files: a rotation makes no new files, so only
creating and appending have to establish it.

The last section is the connection to a disk, where the shelf is the part of
the disk that a naming of the slots makes visible.
-/

namespace UempPlugin.Lib

structure Shelf where
  chain : Chain File
  lost : List File

namespace Shelf

/-- Shift the chain of `N` backups and give up the oldest; without backups
nothing moves. -/
def rotate (N : Nat) (s : Shelf) : Shelf :=
  if N = 0 then s
  else { chain := Chain.shift N s.chain, lost := s.lost ++ (s.chain N).toList }

/-- The current file, empty when it is missing. -/
def current (s : Shelf) : File := (s.chain 0).getD { bytes := [] }

def create (s : Shelf) : Shelf :=
  { s with chain := Function.update s.chain 0 (some s.current) }

def append (b : Bytes) (s : Shelf) : Shelf :=
  { s with
    chain := Function.update s.chain 0
      (some { bytes := s.current.bytes ++ b, written := true }) }

theorem rotate_pos {N : Nat} (hN : N ≠ 0) (s : Shelf) :
    rotate N s = { chain := Chain.shift N s.chain, lost := s.lost ++ (s.chain N).toList } :=
  if_neg hN

theorem current_bytes (s : Shelf) : s.current.bytes = Chain.slotBytes (s.chain 0) := by
  rw [current]
  cases s.chain 0 <;> rfl

theorem create_zero (s : Shelf) : s.create.chain 0 = some s.current :=
  Function.update_self 0 _ s.chain

theorem create_slotBytes (s : Shelf) :
    Chain.slotBytes (s.create.chain 0) = Chain.slotBytes (s.chain 0) := by
  rw [create_zero, Chain.slotBytes_some, current_bytes]

theorem create_backup (s : Shelf) {k : Nat} (hk : 1 ≤ k) : s.create.chain k = s.chain k :=
  Function.update_of_ne (by omega) _ _

theorem append_zero (b : Bytes) (s : Shelf) :
    (s.append b).chain 0 =
      some { bytes := Chain.slotBytes (s.chain 0) ++ b, written := true } := by
  rw [← current_bytes]
  exact Function.update_self 0 _ s.chain

theorem append_backup (b : Bytes) (s : Shelf) {k : Nat} (hk : 1 ≤ k) :
    (s.append b).chain k = s.chain k :=
  Function.update_of_ne (by omega) _ _

/-- A rotation vacates slot 0. -/
theorem rotate_slot {N : Nat} (hN : N ≠ 0) (s : Shelf) : (rotate N s).chain 0 = none := by
  rw [rotate_pos hN]
  rfl

/-! ## The account of the text -/

/-- From `s` to `s'` the bytes `b` were added at the end, and some whole
files, none of them without backups, were given up from the front. -/
def Owes (N : Nat) (b : Bytes) (s s' : Shelf) : Prop :=
  ∃ dropped : List File,
    s'.lost = s.lost ++ dropped ∧
      Chain.content N s.chain ++ b =
        (dropped.map File.bytes).flatten ++ Chain.content N s'.chain ∧
      (N = 0 → dropped = [])

variable {N : Nat} {b b' : Bytes} {s s' s'' : Shelf}

/-- A step that leaves the text and the lost files alone. -/
theorem Owes.of_content (hl : s'.lost = s.lost)
    (hc : Chain.content N s'.chain = Chain.content N s.chain) : Owes N [] s s' :=
  ⟨[], by rw [hl, List.append_nil], by rw [hc, List.append_nil]; rfl, fun _ => rfl⟩

theorem Owes.refl (N : Nat) (s : Shelf) : Owes N [] s s := .of_content rfl rfl

theorem Owes.trans (h : Owes N b s s') (h' : Owes N b' s' s'') : Owes N (b ++ b') s s'' := by
  obtain ⟨xs, hl, hc, h0⟩ := h
  obtain ⟨ys, hl', hc', h0'⟩ := h'
  refine ⟨xs ++ ys, by rw [hl', hl, List.append_assoc], ?_, fun hN => by rw [h0 hN, h0' hN]; rfl⟩
  rw [← List.append_assoc, hc, List.append_assoc, hc', List.map_append, List.flatten_append,
    List.append_assoc]

theorem owes_rotate (N : Nat) (s : Shelf) : Owes N [] s (rotate N s) := by
  by_cases hN : N = 0
  · subst hN
    exact Owes.refl 0 s
  · rw [rotate_pos hN]
    refine ⟨(s.chain N).toList, rfl, ?_, fun h => absurd h hN⟩
    rw [List.append_nil, Chain.content_shift (by omega) s.chain]
    cases s.chain N with
    | none => rfl
    | some f => simp

theorem owes_create (N : Nat) (s : Shelf) : Owes N [] s s.create := by
  refine .of_content rfl ?_
  rw [create, Chain.content_update, current_bytes, Chain.content]

theorem owes_append (N : Nat) (b : Bytes) (s : Shelf) : Owes N b s (s.append b) := by
  refine ⟨[], (List.append_nil _).symm, ?_, fun _ => rfl⟩
  rw [append, Chain.content_update, current_bytes, Chain.content, List.append_assoc]
  rfl

/-! ## Properties of every file -/

def All (P : File → Prop) (s : Shelf) : Prop := ∀ k f, s.chain k = some f → P f

variable {P : File → Prop}

theorem all_rotate (h : All P s) : All P (rotate N s) := by
  intro k f hf
  by_cases hN : N = 0
  · subst hN
    exact h k f hf
  · rw [rotate_pos hN] at hf
    obtain ⟨j, hj⟩ := Chain.shift_mem hf
    exact h j f hj

theorem all_create (h : All P s) (h0 : P { bytes := [] }) : All P s.create := by
  intro k f hf
  by_cases hk : k = 0
  · subst hk
    rw [create_zero] at hf
    injection hf with hf
    rw [← hf, current]
    cases hc : s.chain 0 with
    | none => exact h0
    | some g => exact h 0 g hc
  · rw [create_backup s (by omega)] at hf
    exact h k f hf

theorem all_append (h : All P s)
    (h0 : P { bytes := Chain.slotBytes (s.chain 0) ++ b, written := true }) :
    All P (s.append b) := by
  intro k f hf
  by_cases hk : k = 0
  · subst hk
    rw [append_zero] at hf
    injection hf with hf
    rw [← hf]
    exact h0
  · rw [append_backup b s (by omega)] at hf
    exact h k f hf

end Shelf

/-! ## The shelf on a disk -/

namespace Disk

variable {P : Type} [DecidableEq P]

/-- The files of a chain, and everything the disk has lost. -/
def shelf (path : Nat → P) (d : Disk P) : Shelf where
  chain := chain path d
  lost := d.lost

/-- The calls that rotate a chain of `N` backups. -/
def rotateChain (path : Nat → P) : Nat → Disk P → Disk P
  | 0, d => d
  | n + 1, d => cascade path n (d.unlink (path (n + 1)))

/-- From `d` to `d'` no file outside the chain changed, and without backups
nothing was renamed. -/
structure Frame (path : Nat → P) (N : Nat) (d d' : Disk P) : Prop where
  moved : N = 0 → d'.moved = d.moved
  outside : ∀ p, (∀ k, p ≠ path k) → d'.files p = d.files p

omit [DecidableEq P] in
theorem Frame.refl (path : Nat → P) (N : Nat) (d : Disk P) : Frame path N d d :=
  ⟨fun _ => rfl, fun _ _ => rfl⟩

omit [DecidableEq P] in
theorem Frame.trans {path : Nat → P} {N : Nat} {d d' d'' : Disk P} (h : Frame path N d d')
    (h' : Frame path N d' d'') : Frame path N d d'' :=
  ⟨fun hN => (h'.moved hN).trans (h.moved hN),
    fun p hp => (h'.outside p hp).trans (h.outside p hp)⟩

omit [DecidableEq P] in
theorem Frame.tick (path : Nat → P) (N : Nat) (d : Disk P) : Frame path N d d.tick :=
  ⟨fun _ => rfl, fun _ _ => rfl⟩

theorem rotateChain_fault (path : Nat → P) (N : Nat) (d : Disk P) :
    (rotateChain path N d).fault = d.fault := by
  cases N with
  | zero => rfl
  | succ n => rw [rotateChain, cascade_fault, unlink_fault]

variable {path : Nat → P} {d d' : Disk P}

theorem rotateChain_shelf (hinj : Function.Injective path) (h : d.NoFault) (N : Nat) :
    shelf path (rotateChain path N d) = (shelf path d).rotate N := by
  cases N with
  | zero => rfl
  | succ n =>
      obtain ⟨hchain, hlost, -⟩ := rotate_spec hinj n h
      rw [Shelf.rotate_pos (by omega), rotateChain, shelf, hchain, hlost]
      rfl

theorem rotateChain_frame (hinj : Function.Injective path) (h : d.NoFault) (N : Nat) :
    Frame path N d (rotateChain path N d) := by
  cases N with
  | zero => exact Frame.refl path 0 d
  | succ n =>
      obtain ⟨-, -, hout⟩ := rotate_spec hinj n h
      exact ⟨fun h0 => absurd h0 (by omega), hout⟩

/-- What a rotation with `N` backups does to all the files there are: without
backups nothing; otherwise slot 0 is vacated, every backup is what was one slot
below it, and only the oldest is destroyed. -/
structure Shifted (path : Nat → P) (N : Nat) (d d' : Disk P) : Prop where
  without : N = 0 → d'.files = d.files
  current : 1 ≤ N → d'.files (path 0) = none
  backups : ∀ k, 1 ≤ k → k ≤ N → d'.files (path k) = d.files (path (k - 1))
  others : ∀ p, (∀ k, k ≤ N → p ≠ path k) → d'.files p = d.files p
  lost : d'.lost = d.lost ++ if N = 0 then [] else (d.files (path N)).toList

theorem rotateChain_shifted (hinj : Function.Injective path) (h : d.NoFault) (N : Nat) :
    Shifted path N d (rotateChain path N d) := by
  cases N with
  | zero =>
      exact ⟨fun _ => rfl, fun h => absurd h (by omega), fun k hk hN => absurd hN (by omega),
        fun _ _ => rfl, (List.append_nil _).symm⟩
  | succ n =>
      obtain ⟨hchain, hlost, hout⟩ := rotate_spec hinj n h
      have hslot : ∀ k, (rotateChain path (n + 1) d).files (path k) =
          Chain.shift (n + 1) (chain path d) k := fun k => congrFun hchain k
      refine ⟨fun h0 => absurd h0 (by omega), fun _ => hslot 0, fun k hk hN => ?_,
        fun p hp => ?_, hlost⟩
      · rw [hslot, Chain.shift, if_neg (by omega), if_pos hN]
        rfl
      · by_cases hon : ∃ k, p = path k
        · obtain ⟨k, rfl⟩ := hon
          have hk : n + 1 < k := by
            by_contra hle
            exact hp k (by omega) rfl
          rw [hslot, Chain.shift, if_neg (by omega), if_neg (by omega)]
          rfl
        · exact hout p fun k hk => hon ⟨k, hk⟩

omit [DecidableEq P] in
/-- That is all there is to say about the files. -/
theorem Shifted.unique {N : Nat} {e e' : Disk P} (hd : Shifted path N d d')
    (he : Shifted path N e e') (hfiles : d.files = e.files) : d'.files = e'.files := by
  funext p
  by_cases hon : ∃ k, k ≤ N ∧ p = path k
  · obtain ⟨k, hk, rfl⟩ := hon
    rcases Nat.eq_zero_or_pos N with h0 | hN
    · rw [hd.without h0, he.without h0, hfiles]
    · rcases Nat.eq_zero_or_pos k with rfl | hpos
      · rw [hd.current hN, he.current hN]
      · rw [hd.backups k hpos hk, he.backups k hpos hk, hfiles]
  · have hp : ∀ k, k ≤ N → p ≠ path k := fun k hk heq => hon ⟨k, hk, heq⟩
    rw [hd.others p hp, he.others p hp, hfiles]

/-- Replacing the current file touches no other. -/
theorem frame_update {N : Nat} {f : Option File}
    (hf : d'.files = Function.update d.files (path 0) f) (hm : d'.moved = d.moved) :
    Frame path N d d' := by
  refine ⟨fun _ => hm, fun p hp => ?_⟩
  rw [hf, Function.update_of_ne (hp 0)]

/-- Creating the current file, however the disk did it. -/
theorem shelf_create (hinj : Function.Injective path)
    (hf : d'.files = Function.update d.files (path 0)
      (some ((d.files (path 0)).getD { bytes := [] })))
    (hl : d'.lost = d.lost) : shelf path d' = (shelf path d).create := by
  rw [shelf, hl, chain_update hinj hf]
  rfl

/-- Appending to the current file. -/
theorem shelf_append (hinj : Function.Injective path) {f : File} (hf : d.files (path 0) = some f)
    (b : Bytes) : shelf path (d.append (path 0) b) = (shelf path d).append b := by
  have hcur : (shelf path d).current = f := by
    show (d.files (path 0)).getD _ = f
    rw [hf]
    rfl
  rw [Shelf.append, hcur, shelf, append_lost, chain_update hinj (append_files hf b)]
  rfl

end Disk

end UempPlugin.Lib
