import Std.Data.ExtTreeMap
import Mathlib.Data.List.Induction

/-!
# Tables built by overwriting

A table filled by one insertion after another holds, at every key, what the
last insertion to that key gave it. `lastWrite` reads that off the list of
insertions alone, and everything about such a table is a statement about it:
when two tables are the same, and what of the beginning of a list its end can
still be told from.
-/

namespace UempPlugin.Lib

variable {K V : Type}

section

variable [DecidableEq K]

/-- What the last write to `k` gave. -/
def lastWrite (k : K) : List (K × V) → Option V
  | [] => none
  | w :: ws => (lastWrite k ws).or (if w.1 = k then some w.2 else none)

theorem lastWrite_append (k : K) (xs ys : List (K × V)) :
    lastWrite k (xs ++ ys) = (lastWrite k ys).or (lastWrite k xs) := by
  induction xs with
  | nil => simp [lastWrite]
  | cons w ws ih =>
      rw [List.cons_append, lastWrite, lastWrite, ih, Option.or_assoc]

theorem lastWrite_eq_none {k : K} {ws : List (K × V)} :
    lastWrite k ws = none ↔ ∀ v, (k, v) ∉ ws := by
  induction ws with
  | nil => simp [lastWrite]
  | cons w ws ih =>
      obtain ⟨k', v'⟩ := w
      rw [lastWrite, Option.or_eq_none_iff, ih]
      constructor
      · intro ⟨hws, hw⟩ v hmem
        cases List.mem_cons.1 hmem with
        | inl heq =>
            cases heq
            simp at hw
        | inr hmem => exact hws v hmem
      · intro h
        refine ⟨fun v hmem => h v (List.mem_cons_of_mem _ hmem), ?_⟩
        split
        · next heq => exact absurd (by rw [← heq]; exact List.mem_cons_self) (h v')
        · rfl

/-- A write nobody overwrote. -/
theorem lastWrite_eq_some {k : K} {v : V} {ws : List (K × V)} :
    lastWrite k ws = some v ↔
      ∃ pre post, ws = pre ++ (k, v) :: post ∧ ∀ v', (k, v') ∉ post := by
  constructor
  · intro h
    induction ws with
    | nil => simp [lastWrite] at h
    | cons w ws ih =>
        rw [lastWrite] at h
        cases hrest : lastWrite k ws with
        | none =>
            rw [hrest, Option.none_or] at h
            split at h
            · next heq =>
              refine ⟨[], ws, ?_, lastWrite_eq_none.1 hrest⟩
              rw [List.nil_append, ← heq, ← Option.some.inj h]
            · next => cases h
        | some v' =>
            rw [hrest, Option.some_or] at h
            obtain ⟨pre, post, hws, hpost⟩ := ih (by rw [hrest, h])
            exact ⟨w :: pre, post, by rw [hws, List.cons_append], hpost⟩
  · intro ⟨pre, post, hws, hpost⟩
    rw [hws, lastWrite_append, lastWrite, lastWrite_eq_none.2 hpost]
    simp

end

section

variable [DecidableEq K] {cmp : K → K → Ordering} [Std.TransCmp cmp] [Std.LawfulEqCmp cmp]

/-- The table a list of writes leaves, starting from `t`. -/
def writeAll (t : Std.ExtTreeMap K V cmp) (ws : List (K × V)) : Std.ExtTreeMap K V cmp :=
  ws.foldl (fun t w => t.insert w.1 w.2) t

theorem getElem?_writeAll (k : K) :
    ∀ (ws : List (K × V)) (t : Std.ExtTreeMap K V cmp),
      (writeAll t ws)[k]? = (lastWrite k ws).or t[k]? := by
  intro ws
  induction ws with
  | nil => simp [writeAll, lastWrite]
  | cons w ws ih =>
      intro t
      rw [writeAll, List.foldl_cons]
      change (writeAll (t.insert w.1 w.2) ws)[k]? = _
      rw [ih, lastWrite, Option.or_assoc, Std.ExtTreeMap.getElem?_insert]
      simp only [Std.LawfulEqCmp.compare_eq_iff_eq]
      split <;> simp

theorem writeAll_eq_iff {xs ys : List (K × V)} :
    writeAll (∅ : Std.ExtTreeMap K V cmp) xs = writeAll ∅ ys ↔
      ∀ k, lastWrite k xs = lastWrite k ys := by
  constructor
  · intro h k
    have hk := congrArg (fun t : Std.ExtTreeMap K V cmp => t[k]?) h
    simpa [getElem?_writeAll] using hk
  · intro h
    apply Std.ExtTreeMap.ext_getElem?
    intro k
    rw [getElem?_writeAll, getElem?_writeAll, h k]

/-- What precedes a common end shows through exactly at the keys that end
leaves alone. -/
theorem writeAll_append_eq_iff {xs ys zs : List (K × V)} :
    writeAll (∅ : Std.ExtTreeMap K V cmp) (xs ++ zs) = writeAll ∅ (ys ++ zs) ↔
      ∀ k, (∀ v, (k, v) ∉ zs) → lastWrite k xs = lastWrite k ys := by
  rw [writeAll_eq_iff]
  refine forall_congr' fun k => ?_
  rw [lastWrite_append, lastWrite_append, ← lastWrite_eq_none]
  cases lastWrite k zs <;> simp

end

end UempPlugin.Lib
