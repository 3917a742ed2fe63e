import UempPlugin.Lib.Disk

/-!
# Rotation chains

A rotation chain is a numbered family of slots: slot 0 is the file being
written, slot `k` its `k`-th backup, and a higher number means older text.
Rotating a chain of `N` backups moves every slot one place up and drops the
oldest. This file says that twice, once for families of anything and once for
the files of a disk, and connects the two.

The abstract half is `shift`, `backups` and `content`. Reading a chain oldest
slot first, a shift only ever loses the oldest slot, whole, from the front of
the text (`content_shift`), and replacing slot 0 leaves the rest of it alone
(`content_update`). Everything a rotating log promises about its text comes
from these two equations.

The concrete half is `cascade`, the downward sequence of guarded moves that
rotation code performs. A missing source leaves its destination alone, so the
sequence is a shift only because each destination has been vacated first;
that is the invariant of `cascade_files`.
-/

namespace UempPlugin.Lib

/-- The slots of a chain: 0 is current, `k` the `k`-th backup. -/
abbrev Chain (α : Type) := Nat → Option α

namespace Chain

variable {α : Type}

/-- Every slot moves one place up, slot `N` is dropped, slot 0 is vacated. -/
def shift (N : Nat) (c : Chain α) : Chain α := fun k =>
  if k = 0 then none else if k ≤ N then c (k - 1) else c k

@[simp] theorem shift_zero (N : Nat) (c : Chain α) : shift N c 0 = none := rfl

theorem shift_succ {N k : Nat} (h : k < N) (c : Chain α) :
    shift N c (k + 1) = c k := by
  rw [shift, if_neg (by omega), if_pos (by omega)]
  rfl

/-- A shift makes nothing up. -/
theorem shift_mem {N k : Nat} {c : Chain α} {x : α} (h : shift N c k = some x) :
    ∃ j, c j = some x := by
  rw [shift] at h
  split at h
  · cases h
  · split at h
    · exact ⟨k - 1, h⟩
    · exact ⟨k, h⟩

/-- What a slot contributes to the text. -/
def slotBytes : Option File → Bytes
  | some f => f.bytes
  | none => []

@[simp] theorem slotBytes_none : slotBytes none = [] := rfl

@[simp] theorem slotBytes_some (f : File) : slotBytes (some f) = f.bytes := rfl

/-- The text of the backups, oldest first. -/
def backups : Nat → Chain File → Bytes
  | 0, _ => []
  | n + 1, c => slotBytes (c (n + 1)) ++ backups n c

/-- The text of the whole chain, oldest slot first. -/
def content (N : Nat) (c : Chain File) : Bytes := backups N c ++ slotBytes (c 0)

theorem backups_congr {c c' : Chain File} :
    ∀ {N : Nat}, (∀ k, 1 ≤ k → k ≤ N → c k = c' k) → backups N c = backups N c' := by
  intro N
  induction N with
  | zero => intro _; rfl
  | succ n ih =>
      intro h
      rw [backups, backups, h (n + 1) (by omega) (by omega),
        ih (fun k h1 h2 => h k h1 (by omega))]

theorem backups_shift {N : Nat} (c : Chain File) :
    ∀ {n : Nat}, n < N → backups (n + 1) (shift N c) = content n c := by
  intro n
  induction n with
  | zero =>
      intro h
      simp [backups, content, shift_succ h]
  | succ m ih =>
      intro h
      rw [backups, shift_succ h, ih (by omega), content, content, backups,
        List.append_assoc]

/-- A shift loses exactly the oldest slot, from the front of the text. -/
theorem content_shift {N : Nat} (hN : 1 ≤ N) (c : Chain File) :
    content N c = slotBytes (c N) ++ content N (shift N c) := by
  obtain ⟨n, rfl⟩ : ∃ n, N = n + 1 := ⟨N - 1, by omega⟩
  have hshift : content (n + 1) (shift (n + 1) c) = content n c := by
    rw [content, shift_zero, slotBytes_none, List.append_nil,
      backups_shift c (Nat.lt_succ_self n)]
  rw [hshift, content, content, backups, List.append_assoc]

/-- Only slot 0 is replaced: the backups keep their text. -/
theorem content_update (N : Nat) (c : Chain File) (f : File) :
    content N (Function.update c 0 (some f)) = backups N c ++ f.bytes := by
  have hb : backups N (Function.update c 0 (some f)) = backups N c :=
    backups_congr (fun k hk _ => Function.update_of_ne (by omega) _ _)
  rw [content, Function.update_self, slotBytes_some, hb]

end Chain

/-! ## The moves that perform a shift -/

namespace Disk

variable {P : Type} [DecidableEq P]

/-- Move slot `n` to `n + 1`, then `n - 1` to `n`, and so on down to slot 0. -/
def cascade (path : Nat → P) : Nat → Disk P → Disk P
  | 0, d => d.moveOver (path 0) (path 1)
  | n + 1, d => cascade path n (d.moveOver (path (n + 1)) (path (n + 2)))

@[simp] theorem cascade_fault (path : Nat → P) :
    ∀ (n : Nat) (d : Disk P), (cascade path n d).fault = d.fault := by
  intro n
  induction n with
  | zero => intro d; exact moveOver_fault d _ _
  | succ n ih => intro d; rw [cascade, ih, moveOver_fault]

/-- The chain a disk holds under a naming. -/
def chain (path : Nat → P) (d : Disk P) : Chain File := fun k => d.files (path k)

/-- Replacing one file of the chain replaces its slot. -/
theorem chain_update {path : Nat → P} (hinj : Function.Injective path) {d d' : Disk P}
    {n : Nat} {f : Option File} (h : d'.files = Function.update d.files (path n) f) :
    chain path d' = Function.update (chain path d) n f := by
  funext k
  simp only [chain, h]
  by_cases hk : k = n
  · rw [hk, Function.update_self, Function.update_self]
  · rw [Function.update_of_ne hk, Function.update_of_ne (fun he => hk (hinj he))]
    rfl

/-- One move of the cascade, over a vacant destination. -/
theorem moveOver_chain {path : Nat → P} (hinj : Function.Injective path)
    {d : Disk P} (h : d.NoFault) {n : Nat} (hv : chain path d (n + 1) = none) (k : Nat) :
    chain path (d.moveOver (path n) (path (n + 1))) k =
      if k = n then none else if k = n + 1 then chain path d n else chain path d k := by
  have hne : path n ≠ path (n + 1) := fun he => absurd (hinj he) (by omega)
  simp only [chain] at hv ⊢
  cases hs : d.files (path n) with
  | none =>
      rw [moveOver_files_none h _ hs]
      split
      · next hk => rw [hk]; exact hs
      · split
        · next hk => rw [hk]; exact hv
        · rfl
  | some f =>
      rw [moveOver_files_some h hne hs]
      split
      · next hk => rw [hk, Function.update_of_ne hne, Function.update_self]
      · next hk =>
          split
          · next hk' => rw [hk', Function.update_self]
          · next hk' =>
              rw [Function.update_of_ne (fun he => hk' (hinj he)),
                Function.update_of_ne (fun he => hk (hinj he))]

theorem moveOver_outside {path : Nat → P} {d : Disk P} (h : d.NoFault) {n : Nat}
    (hne : path n ≠ path (n + 1)) {p : P} (hp : ∀ k, p ≠ path k) :
    (d.moveOver (path n) (path (n + 1))).files p = d.files p := by
  cases hs : d.files (path n) with
  | none => rw [moveOver_files_none h _ hs]
  | some f =>
      rw [moveOver_files_some h hne hs, Function.update_of_ne (hp _),
        Function.update_of_ne (hp _)]

/-- The cascade shifts slots 0 to `n` into 1 to `n + 1` once slot `n + 1` is
vacant, destroys nothing, and touches no other file. -/
theorem cascade_spec {path : Nat → P} (hinj : Function.Injective path) :
    ∀ (n : Nat) {d : Disk P}, d.NoFault → chain path d (n + 1) = none →
      chain path (cascade path n d) = Chain.shift (n + 1) (chain path d) ∧
        (cascade path n d).lost = d.lost ∧
        ∀ p, (∀ k, p ≠ path k) → (cascade path n d).files p = d.files p := by
  intro n
  induction n with
  | zero =>
      intro d h hv
      have hne : path 0 ≠ path (0 + 1) := fun he => absurd (hinj he) (by omega)
      refine ⟨?_, moveOver_lost h hne hv, fun p hp => moveOver_outside h hne hp⟩
      funext k
      rw [cascade, moveOver_chain hinj h hv, Chain.shift]
      split
      · rfl
      · next hk =>
          split
          · next hk1 => rw [if_pos (by omega), hk1]
          · next hk1 => rw [if_neg (by omega)]
  | succ n ih =>
      intro d h hv
      have hne : path (n + 1) ≠ path (n + 1 + 1) := fun he => absurd (hinj he) (by omega)
      have hd : (d.moveOver (path (n + 1)) (path (n + 1 + 1))).NoFault :=
        h.of_fault (moveOver_fault _ _ _)
      have hvac : chain path (d.moveOver (path (n + 1)) (path (n + 1 + 1))) (n + 1) = none := by
        rw [moveOver_chain hinj h hv, if_pos rfl]
      obtain ⟨hc, hl, hp⟩ := ih hd hvac
      refine ⟨?_, by rw [cascade, hl, moveOver_lost h hne hv],
        fun p hq => by rw [cascade, hp p hq, moveOver_outside h hne hq]⟩
      funext k
      rw [cascade, hc, Chain.shift, Chain.shift]
      -- Slot `n + 2` received slot `n + 1` first; below it the tail shifts.
      rcases Nat.lt_trichotomy k (n + 2) with hk | hk | hk
      · split
        · rfl
        · rw [if_pos (by omega), if_pos (by omega), moveOver_chain hinj h hv,
            if_neg (by omega), if_neg (by omega)]
      · subst hk
        rw [if_neg (by omega), if_neg (by omega), if_neg (by omega), if_pos (by omega),
          moveOver_chain hinj h hv, if_neg (by omega), if_pos rfl]
        rfl
      · rw [if_neg (by omega), if_neg (by omega), if_neg (by omega), if_neg (by omega),
          moveOver_chain hinj h hv, if_neg (by omega), if_neg (by omega)]

/-- Deleting the oldest backup and cascading the rest rotates the chain: a
shift of the slots, with the oldest backup as the only file destroyed. -/
theorem rotate_spec {path : Nat → P} (hinj : Function.Injective path) (n : Nat)
    {d : Disk P} (h : d.NoFault) :
    chain path (cascade path n (d.unlink (path (n + 1)))) =
        Chain.shift (n + 1) (chain path d) ∧
      (cascade path n (d.unlink (path (n + 1)))).lost =
        d.lost ++ (chain path d (n + 1)).toList ∧
      ∀ p, (∀ k, p ≠ path k) →
        (cascade path n (d.unlink (path (n + 1)))).files p = d.files p := by
  have hu : (d.unlink (path (n + 1))).NoFault := h.of_fault (unlink_fault _ _)
  have hchain : ∀ k, chain path (d.unlink (path (n + 1))) k =
      if k = n + 1 then none else chain path d k := by
    intro k
    simp only [chain, unlink_files h]
    split
    · next hk => rw [hk, Function.update_self]
    · next hk => rw [Function.update_of_ne (fun he => hk (hinj he))]
  obtain ⟨hc, hl, hp⟩ := cascade_spec hinj n hu (by rw [hchain, if_pos rfl])
  refine ⟨?_, by rw [hl, unlink_lost h]; rfl, fun p hq => by
    rw [hp p hq, unlink_files h, Function.update_of_ne (hq _)]⟩
  rw [hc]
  funext k
  simp only [Chain.shift, hchain]
  split
  · rfl
  · split
    · rw [if_neg (by omega)]
    · rw [if_neg (by omega)]

end Disk

end UempPlugin.Lib
