import UempPlugin.Lib.Simulation

/-!
# Programs that stop at their first fault

Loading something is a sequence of checks: each may throw, the first that does
ends the program, and what the program leaves behind depends on how far it
came. `Reads` says this of a computation that only looks, `Obeys` of one that
also changes a state: the fault is known beforehand, and so is the value
returned when there is none. Both compose along a sequence, where the faults
are simply listed in the order of the checks.
-/

namespace UempPlugin.Lib

variable {σ ε α β : Type}

/-- The fault a sequence of checks stops at. -/
def firstFault : List (Option ε) → Option ε
  | [] => none
  | fault :: faults => fault.or (firstFault faults)

theorem firstFault_append (xs ys : List (Option ε)) :
    firstFault (xs ++ ys) = (firstFault xs).or (firstFault ys) := by
  induction xs with
  | nil => rfl
  | cons x xs ih => rw [List.cons_append, firstFault, firstFault, ih, Option.or_assoc]

theorem firstFault_eq_none {faults : List (Option ε)} :
    firstFault faults = none ↔ ∀ fault ∈ faults, fault = none := by
  induction faults with
  | nil => simp [firstFault]
  | cons fault faults ih => rw [firstFault, Option.or_eq_none_iff, ih, List.forall_mem_cons]

/-- `f` throws the fault, and without one returns `a`. -/
def Reads (f : Except ε α) : Option ε → α → Prop
  | none, a => f = .ok a
  | some e, _ => f = .error e

namespace Reads

theorem pure (a : α) : Reads (pure a : Except ε α) none a := rfl

theorem bind {f : Except ε α} {g : α → Except ε β} {fault fault' : Option ε} {a : α} {b : β}
    (hf : Reads f fault a) (hg : Reads (g a) fault' b) : Reads (f >>= g) (fault.or fault') b := by
  cases fault with
  | none =>
      rw [show f = .ok a from hf]
      exact hg
  | some e =>
      rw [show f = .error e from hf]
      rfl

end Reads

/-- How a program ends that meets a fault, or none. -/
def ending : Option ε → α → σ → EStateM.Result ε σ α
  | none, a, s => .ok a s
  | some e, _, s => .error e s

/-- `f` throws the fault, and without one returns `a`; either way the state it
leaves is related by `R` to the one it found. -/
def Obeys (R : σ → σ → Prop) (f : EStateM ε σ α) (fault : Option ε) (a : α) : Prop :=
  ∀ s, ∃ s', f s = ending fault a s' ∧ R s s'

namespace Obeys

variable {R T Q : σ → σ → Prop} {f : EStateM ε σ α} {g : α → EStateM ε σ β}
  {fault fault' : Option ε} {a : α} {b : β}

theorem pure (hrefl : ∀ s, R s s) : Obeys R (pure a : EStateM ε σ α) none a :=
  fun s => ⟨s, rfl, hrefl s⟩

theorem throw {e : ε} (hrefl : ∀ s, R s s) : Obeys R (throw e : EStateM ε σ α) (some e) a :=
  fun s => ⟨s, rfl, hrefl s⟩

theorem modify {h : σ → σ} (hR : ∀ s, R s (h s)) :
    Obeys R (modify h : EStateM ε σ Unit) none () :=
  fun s => ⟨h s, rfl, hR s⟩

theorem weaken (hf : Obeys R f fault a) (h : ∀ {s s'}, R s s' → Q s s') : Obeys Q f fault a := by
  intro s
  obtain ⟨s', he, hr⟩ := hf s
  exact ⟨s', he, h hr⟩

/-- A sequence. What it leaves is what its first part left, if that threw. -/
theorem bind (hf : Obeys R f fault a) (hg : Obeys T (g a) fault' b)
    (hthrow : ∀ {s s'}, fault ≠ none → R s s' → Q s s')
    (hboth : ∀ {s s' s''}, fault = none → R s s' → T s' s'' → Q s s'') :
    Obeys Q (f >>= g) (fault.or fault') b := by
  intro s
  obtain ⟨s', he, hr⟩ := hf s
  cases fault with
  | some e =>
      exact ⟨s', bind_of_error he, hthrow (by simp) hr⟩
  | none =>
      obtain ⟨s'', he', hr'⟩ := hg s'
      exact ⟨s'', (bind_of_ok he).trans he', hboth rfl hr hr'⟩

/-- A sequence both parts of which keep to one relation. -/
theorem seq (hf : Obeys R f fault a) (hg : Obeys R (g a) fault' b)
    (htrans : ∀ {s s' s''}, R s s' → R s' s'' → R s s'') :
    Obeys R (f >>= g) (fault.or fault') b :=
  hf.bind hg (fun _ h => h) (fun _ h h' => htrans h h')

/-- A fault ends a sequence. -/
theorem throws {e : ε} (hf : Obeys R f (some e) a) (g : α → EStateM ε σ β) (s : σ) :
    ∃ s', R s s' ∧ (f >>= g) s = .error e s' := by
  obtain ⟨s', he, hr⟩ := hf s
  refine ⟨s', hr, ?_⟩
  show EStateM.bind f g s = _
  rw [EStateM.bind, he]
  rfl

/-- Without one the rest runs. -/
theorem continues (hf : Obeys R f none a) (g : α → EStateM ε σ β) (s : σ) :
    ∃ s', R s s' ∧ (f >>= g) s = g a s' := by
  obtain ⟨s', he, hr⟩ := hf s
  refine ⟨s', hr, ?_⟩
  show EStateM.bind f g s = _
  rw [EStateM.bind, he]
  rfl

/-- What returned met no fault. -/
theorem of_ok (hf : Obeys R f fault a) {s s' : σ} {b : α} (he : f s = .ok b s') :
    fault = none ∧ b = a ∧ R s s' := by
  obtain ⟨s'', hrun, hr⟩ := hf s
  rw [he] at hrun
  cases fault with
  | some e => cases hrun
  | none =>
      rw [ending, EStateM.Result.ok.injEq] at hrun
      obtain ⟨rfl, rfl⟩ := hrun
      exact ⟨rfl, rfl, hr⟩

end Obeys

end UempPlugin.Lib
