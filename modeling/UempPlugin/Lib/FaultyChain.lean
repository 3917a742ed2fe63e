import Mathlib.Data.Finset.Card
import Mathlib.Data.Finset.Range
import UempPlugin.Lib.Chain

/-!
# Rotation chains whose renames fail

The moves of a cascade delete their destination first. When a rename fails,
its source stays where it is, and there it is the destination of the next
move. So a file whose move failed is destroyed exactly when there is a file
below it to be moved.

`Chain.cascade` is what the moves make of the slots, for any choice of renames
that fail, and `cascade_apply` says slot by slot what that is.
-/

namespace UempPlugin.Lib

namespace Chain

variable {α : Type}

/-- One move: the destination is vacated, and filled when the rename works. -/
def push (fail : Nat → Bool) (n : Nat) (c : Chain α) : Chain α :=
  match c n with
  | none => c
  | some x =>
      if fail n then Function.update c (n + 1) none
      else Function.update (Function.update c n none) (n + 1) (some x)

/-- The moves from slot `n` down to slot 0. -/
def cascade (fail : Nat → Bool) : Nat → Chain α → Chain α
  | 0, c => push fail 0 c
  | n + 1, c => cascade fail n (push fail (n + 1) c)

theorem push_of_ne {fail : Nat → Bool} {n k : Nat} (c : Chain α) (hk : k ≠ n)
    (hk' : k ≠ n + 1) : push fail n c k = c k := by
  rw [push]
  cases c n with
  | none => rfl
  | some x =>
      dsimp only
      split
      · exact Function.update_of_ne hk' _ _
      · rw [Function.update_of_ne hk', Function.update_of_ne hk]

theorem push_self (fail : Nat → Bool) (n : Nat) (c : Chain α) :
    push fail n c n = if fail n then c n else none := by
  rw [push]
  cases hc : c n with
  | none => simp only [hc, ite_self]
  | some x =>
      dsimp only
      split
      · rw [Function.update_of_ne (by omega), hc]
      · rw [Function.update_of_ne (by omega), Function.update_self]

theorem push_succ (fail : Nat → Bool) (n : Nat) (c : Chain α) :
    push fail n c (n + 1) =
      if (c n).isSome then if fail n then none else c n else c (n + 1) := by
  rw [push]
  cases hc : c n with
  | none => rfl
  | some x =>
      simp only [Option.isSome_some, if_true]
      split
      · exact Function.update_self _ _ _
      · exact Function.update_self _ _ _

/-- What ends up in a slot: the file that came from below, or else the one
that stayed because its move failed. -/
def settled (fail : Nat → Bool) (c : Chain α) : Chain α
  | 0 => if fail 0 then c 0 else none
  | k + 1 =>
      if (c k).isSome then if fail k then none else c k
      else if fail (k + 1) then c (k + 1) else none

theorem cascade_of_lt {fail : Nat → Bool} :
    ∀ {n k : Nat} (c : Chain α), n + 1 < k → cascade fail n c k = c k := by
  intro n
  induction n with
  | zero => exact fun c hk => push_of_ne c (by omega) (by omega)
  | succ n ih =>
      intro k c hk
      rw [cascade, ih _ (by omega), push_of_ne c (by omega) (by omega)]

theorem cascade_top {fail : Nat → Bool} :
    ∀ {n : Nat} (c : Chain α), cascade fail n c (n + 1) =
      if (c n).isSome then if fail n then none else c n else c (n + 1) := by
  intro n
  cases n with
  | zero => exact fun c => push_succ fail 0 c
  | succ n =>
      intro c
      rw [cascade, cascade_of_lt _ (by omega), push_succ]

/-- The slots after a cascade. -/
theorem cascade_apply {fail : Nat → Bool} :
    ∀ {n k : Nat} (c : Chain α), k ≤ n → cascade fail n c k = settled fail c k := by
  intro n
  induction n with
  | zero =>
      intro k c hk
      rw [Nat.le_zero.1 hk, cascade, push_self, settled]
  | succ n ih =>
      intro k c hk
      rw [cascade]
      by_cases hlast : k = n + 1
      · rw [hlast, cascade_top, push_self, push_of_ne c (by omega) (by omega), settled]
      · rw [ih _ (by omega)]
        cases k with
        | zero => rw [settled, settled, push_of_ne c (by omega) (by omega)]
        | succ k =>
            rw [settled, settled, push_of_ne c (by omega) (by omega),
              push_of_ne c (by omega) (by omega)]

/-! ## Which files survive -/

/-- Every file below slot `N` still has a slot of its own, up to slot `N`. -/
def Survives (N : Nat) (c c' : Chain α) : Prop :=
  ∃ place : Nat → Nat, Set.InjOn place {k | k < N ∧ (c k).isSome} ∧
    ∀ k < N, (c k).isSome → place k ≤ N ∧ c' (place k) = c k

/-- No file whose move fails has a file below it. -/
def Clear (fail : Nat → Bool) (N : Nat) (c : Chain α) : Prop :=
  ∀ k, k + 1 < N → fail (k + 1) → (c (k + 1)).isSome → c k = none

theorem Survives.congr {N : Nat} {c d c' : Chain α} (h : ∀ k < N, c k = d k) :
    Survives N c c' ↔ Survives N d c' := by
  have hset : {k | k < N ∧ (c k).isSome} = {k | k < N ∧ (d k).isSome} := by
    ext k
    constructor
    · intro ⟨hk, hs⟩
      exact ⟨hk, h k hk ▸ hs⟩
    · intro ⟨hk, hs⟩
      exact ⟨hk, (h k hk).symm ▸ hs⟩
  rw [Survives, Survives, hset]
  constructor
  · intro ⟨place, hinj, hplace⟩
    exact ⟨place, hinj, fun k hk hs => h k hk ▸ hplace k hk ((h k hk).symm ▸ hs)⟩
  · intro ⟨place, hinj, hplace⟩
    exact ⟨place, hinj, fun k hk hs => (h k hk).symm ▸ hplace k hk (h k hk ▸ hs)⟩

section

variable {fail : Nat → Bool} {n : Nat} {c : Chain α}

theorem cascade_settled (hv : c (n + 1) = none) {k : Nat} (hk : k ≤ n + 1) :
    cascade fail n c k = settled fail c k := by
  by_cases hlast : k = n + 1
  · rw [hlast, cascade_top, settled, hv, ite_self]
  · exact cascade_apply c (by omega)

/-- A file stays where its move failed, or goes one slot up. -/
def goesTo (fail : Nat → Bool) (k : Nat) : Nat := if fail k then k else k + 1

theorem goesTo_of_fail {k : Nat} (h : fail k = true) : goesTo fail k = k := if_pos h

theorem goesTo_of_moved {k : Nat} (h : fail k = false) : goesTo fail k = k + 1 :=
  if_neg (by rw [h]; decide)

theorem survives_of_clear (hv : c (n + 1) = none) (h : Clear fail (n + 1) c) :
    Survives (n + 1) c (cascade fail n c) := by
  have hmeet : ∀ i, i + 1 < n + 1 → (c i).isSome → (c (i + 1)).isSome → fail (i + 1) = true →
      False := by
    intro i hi hs hs' hf
    rw [h i hi hf hs'] at hs
    cases hs
  refine ⟨goesTo fail, ?_, ?_⟩
  · intro j ⟨hj, hsj⟩ k ⟨hk, hsk⟩ heq
    cases hfj : fail j with
    | false =>
        rw [goesTo_of_moved hfj] at heq
        cases hfk : fail k with
        | false =>
            rw [goesTo_of_moved hfk] at heq
            omega
        | true =>
            rw [goesTo_of_fail hfk] at heq
            subst heq
            exact (hmeet j hk hsj hsk hfk).elim
    | true =>
        rw [goesTo_of_fail hfj] at heq
        cases hfk : fail k with
        | false =>
            rw [goesTo_of_moved hfk] at heq
            subst heq
            exact (hmeet k hj hsk hsj hfj).elim
        | true => rw [heq, goesTo_of_fail hfk]
  · intro k hk hs
    cases hf : fail k with
    | false =>
        rw [goesTo_of_moved hf, cascade_settled hv (by omega), settled, if_pos hs,
          if_neg (by rw [hf]; decide)]
        exact ⟨by omega, rfl⟩
    | true =>
        rw [goesTo_of_fail hf, cascade_settled hv (by omega)]
        refine ⟨by omega, ?_⟩
        cases k with
        | zero => rw [settled, if_pos hf]
        | succ k => rw [settled, h k hk hf hs, Option.isSome_none, if_neg Bool.false_ne_true, if_pos hf]

/-- Where the file in a slot came from. -/
def origin (c : Chain α) (k : Nat) : Nat :=
  if k ≠ 0 ∧ (c (k - 1)).isSome then k - 1 else k

/-- A settled file came from a slot of its own, and either moved or failed to. -/
theorem settled_origin {k : Nat} (hs : (settled fail c k).isSome) :
    settled fail c k = c (origin c k) ∧
      (k = origin c k + 1 ∧ fail (origin c k) = false ∨
        k = origin c k ∧ fail k = true ∧ (k = 0 ∨ c (k - 1) = none)) := by
  cases k with
  | zero =>
      rw [settled] at hs ⊢
      split at hs
      · next hf =>
          rw [if_pos hf]
          exact ⟨rfl, .inr ⟨rfl, hf, .inl rfl⟩⟩
      · cases hs
  | succ k =>
      rw [settled] at hs ⊢
      by_cases hk : (c k).isSome
      · have ho : origin c (k + 1) = k := by
          rw [origin, if_pos ⟨by omega, hk⟩]
          omega
        rw [if_pos hk] at hs ⊢
        split at hs
        · cases hs
        · next hf =>
            rw [if_neg hf, ho]
            exact ⟨rfl, .inl ⟨rfl, by simpa using hf⟩⟩
      · have ho : origin c (k + 1) = k + 1 := by
          rw [origin, if_neg fun h => hk h.2]
        rw [if_neg hk] at hs ⊢
        split at hs
        · next hf =>
            rw [if_pos hf, ho]
            exact ⟨rfl, .inr ⟨rfl, hf, .inr (by simpa using hk)⟩⟩
        · cases hs

/-- No two slots end up filled from the same one. -/
theorem origin_inj {i j : Nat} (hi : (settled fail c i).isSome) (hj : (settled fail c j).isSome)
    (h : origin c i = origin c j) : i = j := by
  obtain ⟨-, hcase⟩ := settled_origin hi
  obtain ⟨-, hcase'⟩ := settled_origin hj
  rcases hcase with ⟨hmoved, hok⟩ | ⟨hstay, hfail, -⟩
  · rcases hcase' with ⟨hmoved', -⟩ | ⟨hstay', hfail', -⟩
    · omega
    · rw [hstay', ← h, hok] at hfail'
      cases hfail'
  · rcases hcase' with ⟨hmoved', hok'⟩ | ⟨hstay', -, -⟩
    · rw [hstay, h, hok'] at hfail
      cases hfail
    · omega

/-- A file whose move failed over another one has no place left: the others
would have to share. -/
theorem clear_of_survives (hv : c (n + 1) = none) (h : Survives (n + 1) c (cascade fail n c)) :
    Clear fail (n + 1) c := by
  obtain ⟨place, hinj, hplace⟩ := h
  intro k hk hf hs
  by_contra hbelow
  have hfilled : ∀ j, j < n + 1 → (c j).isSome →
      (settled fail c (place j)).isSome ∧ settled fail c (place j) = c j := by
    intro j hj hsj
    obtain ⟨hle, hval⟩ := hplace j hj hsj
    rw [cascade_settled hv hle] at hval
    rw [hval]
    exact ⟨hsj, rfl⟩
  -- Each file goes to its place and back to where that place was filled from,
  -- which is never slot `k + 1`.
  have horigin : ∀ j, j < n + 1 → (c j).isSome → origin c (place j) < n + 1 ∧
      (c (origin c (place j))).isSome ∧ origin c (place j) ≠ k + 1 := by
    intro j hj hsj
    obtain ⟨hsome, hval⟩ := hfilled j hj hsj
    obtain ⟨heq, hcase⟩ := settled_origin hsome
    have hso : (c (origin c (place j))).isSome := by rw [← heq]; exact hsome
    have hle := (hplace j hj hsj).1
    rcases hcase with ⟨hmoved, hok⟩ | ⟨hstay, hfail, hvacant⟩
    · refine ⟨by omega, hso, ?_⟩
      intro ho
      rw [ho, hf] at hok
      cases hok
    · have htop : origin c (place j) ≠ n + 1 := by
        intro ho
        rw [ho, hv] at hso
        cases hso
      refine ⟨by omega, hso, ?_⟩
      intro ho
      rw [← hstay] at ho
      rw [ho] at hvacant
      rcases hvacant with hzero | hnone
      · omega
      · exact hbelow hnone
  have hlt : ((Finset.range (n + 1)).filter fun j => (c j).isSome).card ≤
      (((Finset.range (n + 1)).filter fun j => (c j).isSome).erase (k + 1)).card := by
    refine Finset.card_le_card_of_injOn (fun j => origin c (place j)) ?_ ?_
    · intro j hj
      obtain ⟨hj, hsj⟩ := Finset.mem_filter.1 hj
      obtain ⟨hlt, hso, hne⟩ := horigin j (Finset.mem_range.1 hj) hsj
      exact Finset.mem_erase.2 ⟨hne, Finset.mem_filter.2 ⟨Finset.mem_range.2 hlt, hso⟩⟩
    · intro i hi j hj heq
      obtain ⟨hi, hsi⟩ := Finset.mem_filter.1 hi
      obtain ⟨hj, hsj⟩ := Finset.mem_filter.1 hj
      have hi := Finset.mem_range.1 hi
      have hj := Finset.mem_range.1 hj
      exact hinj ⟨hi, hsi⟩ ⟨hj, hsj⟩ (origin_inj (hfilled i hi hsi).1 (hfilled j hj hsj).1 heq)
  rw [Finset.card_erase_of_mem (Finset.mem_filter.2 ⟨Finset.mem_range.2 hk, hs⟩)] at hlt
  have hpos : 0 < ((Finset.range (n + 1)).filter fun j => (c j).isSome).card :=
    Finset.card_pos.2 ⟨k + 1, Finset.mem_filter.2 ⟨Finset.mem_range.2 hk, hs⟩⟩
  omega

/-- What survives a cascade over a vacant slot. -/
theorem survives_cascade_iff (hv : c (n + 1) = none) :
    Survives (n + 1) c (cascade fail n c) ↔ Clear fail (n + 1) c :=
  ⟨clear_of_survives hv, survives_of_clear hv⟩

end

end Chain

/-! ## On a disk -/

namespace Disk

variable {P : Type} {path : Nat → P} {fail : Nat → Bool} {d : Disk P}

/-- The only calls that fail are the renames out of the slots of `fail`. A
rotation renames each slot once at most, so this is any choice of renames. -/
structure RenamesFail (path : Nat → P) (fail : Nat → Bool) (d : Disk P) : Prop where
  renames : ∀ n k, (d.fault n (.rename (path k) (path (k + 1)))).isSome = fail k
  others : ∀ n call, (∀ k, call ≠ .rename (path k) (path (k + 1))) → d.fault n call = none

theorem RenamesFail.of_fault {d' : Disk P} (h : RenamesFail path fail d)
    (he : d'.fault = d.fault) : RenamesFail path fail d' where
  renames := by rw [he]; exact h.renames
  others := by rw [he]; exact h.others

theorem RenamesFail.refuses (h : RenamesFail path fail d) (call : Call P)
    (hcall : ∀ k, call ≠ .rename (path k) (path (k + 1))) : d.refuses call = none :=
  h.others d.calls call hcall

theorem RenamesFail.refuses_rename (h : RenamesFail path fail d) (n : Nat) :
    (d.refuses (.rename (path n) (path (n + 1)))).isSome = fail n :=
  h.renames d.calls n

variable [DecidableEq P]

theorem unlink_eq {p : P} (h : d.refuses (.unlink p) = none) :
    (d.unlink p).files = Function.update d.files p none := by
  unfold unlink
  rw [h]
  cases hf : d.files p with
  | none =>
      simp only [tick_files]
      rw [← hf, Function.update_eq_self]
  | some f => rfl

theorem rename_eq {src : P} (dst : P) {f : File} (hf : d.files src = some f) :
    (d.rename src dst).files =
      if (d.refuses (.rename src dst)).isSome then d.files
      else Function.update (Function.update d.files src none) dst (some f) := by
  unfold rename
  rw [hf]
  cases d.refuses (.rename src dst) with
  | none => rfl
  | some k => rfl

/-- One move of a cascade, when its rename may fail. -/
theorem moveOver_push (hinj : Function.Injective path) (h : RenamesFail path fail d) (n : Nat) :
    chain path (d.moveOver (path n) (path (n + 1))) = Chain.push fail n (chain path d) := by
  have hne : path n ≠ path (n + 1) := fun he => absurd (hinj he) (by omega)
  have hstat : d.stat (path n) = ((d.files (path n)).isSome, d.tick) := by
    rw [stat, h.refuses (.stat (path n)) fun k hk => by cases hk]
    rfl
  have ht : RenamesFail path fail d.tick := h.of_fault rfl
  have hu : RenamesFail path fail (d.tick.unlink (path (n + 1))) :=
    ht.of_fault (unlink_fault _ _)
  have hunlink := unlink_eq (ht.refuses (.unlink (path (n + 1))) fun k hk => by cases hk)
  rw [moveOver, hstat, Chain.push]
  cases hsrc : d.files (path n) with
  | none =>
      rw [show chain path d n = none from hsrc]
      rfl
  | some f =>
      rw [show chain path d n = some f from hsrc]
      have hmoved : (d.tick.unlink (path (n + 1))).files (path n) = some f := by
        rw [hunlink, Function.update_of_ne hne]
        exact hsrc
      have hfiles := rename_eq (path (n + 1)) hmoved
      rw [hu.refuses_rename] at hfiles
      dsimp only [Option.isSome_some]
      cases hf : fail n with
      | true =>
          rw [hf, if_pos rfl, hunlink] at hfiles
          rw [if_pos rfl]
          exact chain_update hinj hfiles
      | false =>
          rw [hf, if_neg Bool.false_ne_true, hunlink, Function.update_comm hne.symm,
            Function.update_idem] at hfiles
          have hvacated : chain path { d with files := Function.update d.files (path n) none } =
              Function.update (chain path d) n none := chain_update hinj rfl
          rw [if_neg Bool.false_ne_true, ← hvacated]
          exact chain_update hinj hfiles

theorem cascade_faulty (hinj : Function.Injective path) :
    ∀ (n : Nat) {d : Disk P}, RenamesFail path fail d →
      chain path (cascade path n d) = Chain.cascade fail n (chain path d) := by
  intro n
  induction n with
  | zero => exact fun h => moveOver_push hinj h 0
  | succ n ih =>
      intro d h
      rw [cascade, ih (h.of_fault (moveOver_fault _ _ _)), moveOver_push hinj h, Chain.cascade]

/-- Rotating keeps every file below the oldest backup exactly when no file
whose rename fails has another one below it. -/
theorem rotate_survives_iff (hinj : Function.Injective path) (h : RenamesFail path fail d)
    (n : Nat) :
    Chain.Survives (n + 1) (chain path d)
        (chain path (cascade path n (d.unlink (path (n + 1))))) ↔
      Chain.Clear fail (n + 1) (chain path d) := by
  have hu : RenamesFail path fail (d.unlink (path (n + 1))) := h.of_fault (unlink_fault _ _)
  have hunlink := unlink_eq (h.refuses (.unlink (path (n + 1))) fun k hk => by cases hk)
  have hchain := chain_update hinj hunlink
  have hbelow : ∀ k < n + 1, chain path d k = chain path (d.unlink (path (n + 1))) k := by
    intro k hk
    rw [hchain, Function.update_of_ne (by omega)]
  rw [Chain.Survives.congr hbelow, cascade_faulty hinj n hu, Chain.survives_cascade_iff
    (by rw [hchain, Function.update_self])]
  constructor
  · intro hclear k hk hf hs
    rw [hbelow k (by omega)]
    exact hclear k hk hf (by rw [← hbelow (k + 1) hk]; exact hs)
  · intro hclear k hk hf hs
    rw [← hbelow k (by omega)]
    exact hclear k hk hf (by rw [hbelow (k + 1) hk]; exact hs)

end Disk

end UempPlugin.Lib
