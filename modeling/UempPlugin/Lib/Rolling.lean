import UempPlugin.Lib.Shelf

/-!
# Rolling a chain without making room first

A rotation may also be nothing but the cascade of moves, the oldest backup
being overwritten by the one below it. Then a gap right below the oldest backup
saves it: nothing comes to take its place. The rest moves up as it does with
one backup less.

The current file is reopened by truncating it. After a cascade it is not there
and comes back empty; where there are no backups this is what loses the text.
`Sheds` is the account of the text for rotations that may lose it so.
-/

namespace UempPlugin.Lib

namespace Chain

variable {α : Type}

/-- What the cascade does to a chain of `N` backups. -/
def roll (N : Nat) (c : Chain α) : Chain α :=
  if (c (N - 1)).isSome then shift N c else if N = 1 then c else shift (N - 1) c

theorem content_succ (n : Nat) (c : Chain File) :
    content (n + 1) c = slotBytes (c (n + 1)) ++ content n c := by
  rw [content, backups, List.append_assoc, content]

/-- Over a gap right below the oldest slot, that slot stays, where a shift
empties it. -/
theorem roll_gap {N : Nat} (hN : 1 ≤ N) {c : Chain α} (hgap : c (N - 1) = none) :
    roll N c N = c N ∧ shift N c N = none := by
  constructor
  · rw [roll, hgap, Option.isSome_none, if_neg Bool.false_ne_true]
    split
    · rfl
    · rw [shift, if_neg (by omega), if_neg (by omega)]
  · rw [shift, if_neg (by omega), if_pos (Nat.le_refl N), hgap]

/-- With the slot below the oldest in use, or no oldest, it is a shift. -/
theorem roll_eq_shift_iff {N : Nat} (hN : 1 ≤ N) {c : Chain α} :
    roll N c = shift N c ↔ ((c (N - 1)).isSome ∨ c N = none) := by
  by_cases hbelow : (c (N - 1)).isSome
  · rw [roll, if_pos hbelow]
    exact ⟨fun _ => .inl hbelow, fun _ => rfl⟩
  · have hnone : c (N - 1) = none := by simpa using hbelow
    obtain ⟨hkept, hempty⟩ := roll_gap hN hnone
    constructor
    · intro heq
      rw [← hkept, heq]
      exact .inr hempty
    · intro h
      have htop : c N = none := h.resolve_left hbelow
      rw [roll, if_neg hbelow]
      funext k
      split
      · next hone =>
          subst hone
          rw [shift]
          split
          · next hk => rw [hk, hnone]
          · split
            · next hk => rw [show k = 1 by omega, htop, hnone]
            · rfl
      · rcases Nat.lt_trichotomy k N with hk | rfl | hk
        · rw [shift, shift]
          split
          · rfl
          · rw [if_pos (by omega), if_pos (by omega)]
        · rw [hempty, shift, if_neg (by omega), if_neg (by omega), htop]
        · rw [shift, if_neg (by omega), if_neg (by omega), shift, if_neg (by omega),
            if_neg (by omega)]

end Chain

/-! ## On a shelf -/

namespace Shelf

def roll (N : Nat) (s : Shelf) : Shelf :=
  if (s.chain (N - 1)).isSome then s.rotate N else s.rotate (N - 1)

/-- Empty the current file, creating it if need be. -/
def clear (s : Shelf) : Shelf where
  chain := Function.update s.chain 0 (some { bytes := [] })
  lost := s.lost ++ (s.chain 0).toList

/-- From `s` to `s'` the bytes `b` were added at the end, and some whole files
were given up from the front. -/
def Sheds (N : Nat) (b : Bytes) (s s' : Shelf) : Prop :=
  ∃ dropped : List File,
    s'.lost = s.lost ++ dropped ∧
      Chain.content N s.chain ++ b = (dropped.map File.bytes).flatten ++ Chain.content N s'.chain

variable {N : Nat} {b b' : Bytes} {s s' s'' : Shelf}

theorem Owes.sheds (h : Owes N b s s') : Sheds N b s s' := by
  obtain ⟨dropped, hlost, hcontent, -⟩ := h
  exact ⟨dropped, hlost, hcontent⟩

theorem Sheds.trans (h : Sheds N b s s') (h' : Sheds N b' s' s'') : Sheds N (b ++ b') s s'' := by
  obtain ⟨xs, hl, hc⟩ := h
  obtain ⟨ys, hl', hc'⟩ := h'
  refine ⟨xs ++ ys, by rw [hl', hl, List.append_assoc], ?_⟩
  rw [← List.append_assoc, hc, List.append_assoc, hc', List.map_append, List.flatten_append,
    List.append_assoc]

/-- The current file is given up; it is the front where there are no backups,
and after a rotation it is not there. -/
theorem sheds_clear (h : N = 0 ∨ s.chain 0 = none) : Sheds N [] s s.clear := by
  refine ⟨(s.chain 0).toList, rfl, ?_⟩
  rw [List.append_nil, clear, Chain.content_update, Chain.content, List.append_nil]
  rcases h with rfl | h0
  · show Chain.slotBytes (s.chain 0) = ((s.chain 0).toList.map File.bytes).flatten ++ []
    cases s.chain 0 with
    | none => rfl
    | some f => simp
  · rw [h0, Chain.slotBytes_none, List.append_nil]
    rfl

theorem sheds_roll (hN : 1 ≤ N) (s : Shelf) : Sheds N [] s (roll N s) := by
  rw [roll]
  split
  · exact (owes_rotate N s).sheds
  · next hgap =>
      -- slot `N` stays, and the account is that of one backup less
      obtain ⟨n, rfl⟩ : ∃ n, N = n + 1 := ⟨N - 1, by omega⟩
      rw [Nat.add_sub_cancel] at hgap ⊢
      obtain ⟨dropped, hlost, hcontent, -⟩ := owes_rotate n s
      have htop : (rotate n s).chain (n + 1) = s.chain (n + 1) := by
        rw [rotate]
        split
        · rfl
        · show Chain.shift n s.chain (n + 1) = _
          rw [Chain.shift, if_neg (by omega), if_neg (by omega)]
      have hgone : s.chain n = none := by simpa using hgap
      have hdropped : dropped = [] := by
        have hsame : (rotate n s).lost = s.lost := by
          rw [rotate]
          split
          · rfl
          · rw [hgone]
            exact List.append_nil _
        rw [hsame] at hlost
        exact List.append_right_eq_self.1 hlost.symm
      subst hdropped
      refine ⟨[], hlost, ?_⟩
      rw [Chain.content_succ, Chain.content_succ, htop, List.append_assoc, hcontent]
      rfl

/-- A cascade vacates slot 0, if it is not vacant. -/
theorem roll_slot (hN : 1 ≤ N) (s : Shelf) : (roll N s).chain 0 = none := by
  rw [roll]
  split
  · exact rotate_slot (by omega) s
  · next hgap =>
      by_cases hone : N = 1
      · subst hone
        exact Option.not_isSome_iff_eq_none.1 hgap
      · exact rotate_slot (by omega) s

theorem roll_chain (hN : 1 ≤ N) (s : Shelf) : (roll N s).chain = Chain.roll N s.chain := by
  rw [roll, Chain.roll]
  split
  · rw [rotate_pos (by omega)]
  · split
    · next hone =>
        subst hone
        rfl
    · rw [rotate_pos (by omega)]

/-- Nothing above the oldest backup moves. -/
theorem roll_above {k : Nat} (hk : N < k) (s : Shelf) : (roll N s).chain k = s.chain k := by
  have hrotate : ∀ n, n ≤ N → (rotate n s).chain k = s.chain k := by
    intro n hn
    rw [rotate]
    split
    · rfl
    · show Chain.shift n s.chain k = _
      rw [Chain.shift, if_neg (by omega), if_neg (by omega)]
  rw [roll]
  split
  · exact hrotate N (Nat.le_refl N)
  · exact hrotate (N - 1) (Nat.sub_le N 1)

variable {P : File → Prop}

theorem all_roll (h : All P s) : All P (roll N s) := by
  rw [roll]
  split
  · exact all_rotate h
  · exact all_rotate h

theorem clear_zero (s : Shelf) : s.clear.chain 0 = some { bytes := [] } :=
  Function.update_self 0 _ s.chain

theorem clear_backup (s : Shelf) {k : Nat} (hk : k ≠ 0) : s.clear.chain k = s.chain k :=
  Function.update_of_ne hk _ _

theorem all_clear (h : All P s) (h0 : P { bytes := [] }) : All P s.clear := by
  intro k f hf
  by_cases hk : k = 0
  · subst hk
    rw [clear_zero] at hf
    cases hf
    exact h0
  · rw [clear_backup s hk] at hf
    exact h k f hf

end Shelf

/-! ## On a disk -/

namespace Disk

variable {P : Type} [DecidableEq P]

/-- Open for writing, emptying the file or creating it. -/
def truncate (p : P) (d : Disk P) : Bool × Disk P :=
  match d.refuses (.fopen p) with
  | some _ => (false, d.tick)
  | none =>
      (true, { d.tick with
        files := Function.update d.files p (some { bytes := [] })
        lost := d.lost ++ (d.files p).toList })

@[simp] theorem truncate_fault (d : Disk P) (p : P) : (d.truncate p).2.fault = d.fault := by
  unfold truncate; split <;> rfl

@[simp] theorem truncate_moved (d : Disk P) (p : P) : (d.truncate p).2.moved = d.moved := by
  unfold truncate; split <;> rfl

theorem truncate_eq {d : Disk P} (h : d.NoFault) (p : P) :
    (d.truncate p).1 = true ∧
      (d.truncate p).2.files = Function.update d.files p (some { bytes := [] }) ∧
      (d.truncate p).2.lost = d.lost ++ (d.files p).toList := by
  rw [truncate, h.refuses]
  exact ⟨rfl, rfl, rfl⟩

variable {path : Nat → P} {d d' : Disk P}

theorem shelf_clear (hinj : Function.Injective path)
    (hf : d'.files = Function.update d.files (path 0) (some { bytes := [] }))
    (hl : d'.lost = d.lost ++ (d.files (path 0)).toList) :
    shelf path d' = (shelf path d).clear := by
  rw [shelf, hl, chain_update hinj hf]
  rfl

/-- A move of a file destroys what bore its new name. -/
theorem moveOver_lost_some {src dst : P} (h : d.NoFault) (hne : src ≠ dst) {f : File}
    (hs : d.files src = some f) : (d.moveOver src dst).lost = d.lost ++ (d.files dst).toList := by
  have ht : d.tick.NoFault := h.of_fault rfl
  have hu : (d.tick.unlink dst).NoFault := ht.of_fault (unlink_fault _ _)
  have hsrc : (d.tick.unlink dst).files src = some f := by
    rw [unlink_files ht, Function.update_of_ne hne]
    exact hs
  rw [moveOver, stat_eq h, hs]
  simp only [Option.isSome_some]
  rw [rename_lost hu dst hsrc, unlink_lost ht, unlink_files ht, Function.update_self]
  exact List.append_nil _

theorem moveOver_chain_some (hinj : Function.Injective path) (h : d.NoFault) {n : Nat} {f : File}
    (hs : chain path d n = some f) (k : Nat) :
    chain path (d.moveOver (path n) (path (n + 1))) k =
      if k = n then none else if k = n + 1 then chain path d n else chain path d k := by
  have hne : path n ≠ path (n + 1) := fun he => absurd (hinj he) (by omega)
  rw [hs]
  simp only [chain] at hs ⊢
  rw [moveOver_files_some h hne hs]
  split
  · next hk => rw [hk, Function.update_of_ne hne, Function.update_self]
  · next hk =>
      split
      · next hk' => rw [hk', Function.update_self]
      · next hk' =>
          rw [Function.update_of_ne fun he => hk' (hinj he),
            Function.update_of_ne fun he => hk (hinj he)]

/-- The cascade alone rolls the chain. -/
theorem cascade_shelf (hinj : Function.Injective path) (h : d.NoFault) (n : Nat) :
    shelf path (cascade path n d) = (shelf path d).roll (n + 1) ∧
      ∀ p, (∀ k, p ≠ path k) → (cascade path n d).files p = d.files p := by
  have hne : path n ≠ path (n + 1) := fun he => absurd (hinj he) (by omega)
  rw [Shelf.roll, Nat.add_sub_cancel, show (shelf path d).chain n = chain path d n from rfl]
  cases hs : chain path d n with
  | some f =>
      rw [if_pos Option.isSome_some, Shelf.rotate_pos (by omega)]
      have hfirst := moveOver_chain_some hinj h hs
      have hlost := moveOver_lost_some h hne hs
      cases n with
      | zero =>
          refine ⟨?_, fun p hp => moveOver_outside h hne hp⟩
          rw [shelf, cascade, hlost]
          congr 1
          funext k
          rw [hfirst, Chain.shift]
          split
          · rfl
          · next hk =>
              split
              · next hk1 => rw [if_pos (by omega), hk1]; rfl
              · rw [if_neg (by omega)]; rfl
      | succ n =>
          have hd : (d.moveOver (path (n + 1)) (path (n + 1 + 1))).NoFault :=
            h.of_fault (moveOver_fault _ _ _)
          have hvac : chain path (d.moveOver (path (n + 1)) (path (n + 1 + 1))) (n + 1) = none := by
            rw [hfirst, if_pos rfl]
          obtain ⟨hchain, hsame, hout⟩ := cascade_spec hinj n hd hvac
          refine ⟨?_, fun p hp => by rw [cascade, hout p hp, moveOver_outside h hne hp]⟩
          rw [shelf, cascade, hsame, hlost, hchain]
          congr 1
          funext k
          rw [Chain.shift, Chain.shift]
          rcases Nat.lt_trichotomy k (n + 2) with hk | rfl | hk
          · split
            · rfl
            · rw [if_pos (by omega), if_pos (by omega), hfirst, if_neg (by omega),
                if_neg (by omega)]
              rfl
          · rw [if_neg (by omega), if_neg (by omega), if_neg (by omega), if_pos (by omega), hfirst,
              if_neg (by omega), if_pos rfl]
            rfl
          · rw [if_neg (by omega), if_neg (by omega), if_neg (by omega), if_neg (by omega), hfirst,
              if_neg (by omega), if_neg (by omega)]
            rfl
  | none =>
      rw [if_neg (by decide)]
      have hskip : d.moveOver (path n) (path (n + 1)) = d.tick := by
        rw [moveOver, stat_eq h, show d.files (path n) = none from hs]
        rfl
      cases n with
      | zero =>
          rw [cascade, hskip]
          exact ⟨rfl, fun _ _ => rfl⟩
      | succ n =>
          obtain ⟨hchain, hsame, hout⟩ := cascade_spec hinj n (h.of_fault rfl : d.tick.NoFault) hs
          rw [cascade, hskip, Shelf.rotate_pos (by omega)]
          refine ⟨?_, hout⟩
          rw [shelf, hchain, hsame]
          show Shelf.mk _ d.lost = Shelf.mk _ (d.lost ++ (chain path d (n + 1)).toList)
          rw [hs, Option.toList_none, List.append_nil]
          rfl

end Disk

end UempPlugin.Lib
