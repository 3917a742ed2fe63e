import UempPlugin.Lib.Disk

/-!
# Counting lines

The lines of a byte string are its newline bytes, plus one for an
unterminated rest. The unterminated rest is what keeps the count from being
additive, so most facts here are about strings that end in a newline, or that
are empty: those can be concatenated freely.
-/

namespace UempPlugin.Lib

/-- The newline byte. -/
def newline : UInt8 := 10

/-- Newline bytes, plus one when the last line is not terminated. -/
def lineCount (b : Bytes) : Nat :=
  b.count newline + if b ≠ [] ∧ b.getLast? ≠ some newline then 1 else 0

/-- Nothing is left over after the last newline. -/
def Closed (b : Bytes) : Prop := b = [] ∨ b.getLast? = some newline

instance (b : Bytes) : Decidable (Closed b) := inferInstanceAs (Decidable (_ ∨ _))

/-- A message ends with its newline. -/
def Terminated (b : Bytes) : Prop := b.getLast? = some newline

instance (b : Bytes) : Decidable (Terminated b) := inferInstanceAs (Decidable (_ = _))

/-- One line exactly: the newline at the end and nowhere else. -/
def OneLine (b : Bytes) : Prop := b.getLast? = some newline ∧ b.count newline = 1

instance (b : Bytes) : Decidable (OneLine b) := inferInstanceAs (Decidable (_ ∧ _))

theorem OneLine.terminated {b : Bytes} (h : OneLine b) : Terminated b := h.1

@[simp] theorem closed_nil : Closed [] := Or.inl rfl

theorem Terminated.closed {b : Bytes} (h : Terminated b) : Closed b := Or.inr h

theorem Terminated.append_left {b : Bytes} (h : Terminated b) (a : Bytes) :
    Terminated (a ++ b) := by
  rw [Terminated, List.getLast?_append, h]
  rfl

theorem Closed.append {a b : Bytes} (ha : Closed a) (hb : Closed b) : Closed (a ++ b) := by
  rcases hb with rfl | hb
  · rwa [List.append_nil]
  · exact (Terminated.append_left hb a).closed

@[simp] theorem lineCount_nil : lineCount [] = 0 := rfl

theorem lineCount_closed {b : Bytes} (h : Closed b) : lineCount b = b.count newline := by
  rw [lineCount, if_neg, Nat.add_zero]
  rintro ⟨hne, hlast⟩
  rcases h with h | h
  · exact hne h
  · exact hlast h

theorem lineCount_append {a b : Bytes} (ha : Closed a) (hb : Closed b) :
    lineCount (a ++ b) = lineCount a + lineCount b := by
  rw [lineCount_closed (ha.append hb), lineCount_closed ha, lineCount_closed hb,
    List.count_append]

/-- Text that is added takes no line away. -/
theorem lineCount_le_append (a b : Bytes) : lineCount a ≤ lineCount (a ++ b) := by
  rcases List.eq_nil_or_concat b with rfl | ⟨bs, x, rfl⟩
  · exact Nat.le_of_eq (congrArg lineCount (List.append_nil a).symm)
  · rw [List.concat_eq_append, ← List.append_assoc, lineCount, lineCount, List.count_append,
      List.count_append, List.getLast?_concat]
    by_cases hx : x = newline
    · -- the newline ends a line that was not ended
      subst hx
      rw [List.count_singleton_self]
      split
      · omega
      · omega
    · have hopen : a ++ bs ++ [x] ≠ [] ∧ some x ≠ some newline :=
        ⟨by simp, fun h => hx (Option.some.inj h)⟩
      rw [if_pos hopen]
      split
      · omega
      · omega

theorem OneLine.lineCount {b : Bytes} (h : OneLine b) : lineCount b = 1 := by
  rw [lineCount_closed h.terminated.closed, h.2]

theorem closed_flatten {ms : List Bytes} (h : ∀ m ∈ ms, Closed m) : Closed ms.flatten := by
  induction ms with
  | nil => exact closed_nil
  | cons m ms ih =>
      rw [List.flatten_cons]
      exact (h m (by simp)).append (ih (fun x hx => h x (by simp [hx])))

/-- One-line messages, concatenated, make one line each. -/
theorem lineCount_flatten {ms : List Bytes} (h : ∀ m ∈ ms, OneLine m) :
    lineCount ms.flatten = ms.length := by
  induction ms with
  | nil => rfl
  | cons m ms ih =>
      have hm := h m (by simp)
      have hms : ∀ x ∈ ms, OneLine x := fun x hx => h x (by simp [hx])
      rw [List.flatten_cons,
        lineCount_append hm.terminated.closed
          (closed_flatten (fun x hx => (hms x hx).terminated.closed)),
        hm.lineCount, ih hms, List.length_cons, Nat.add_comm]

end UempPlugin.Lib
