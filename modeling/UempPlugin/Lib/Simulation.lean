/-!
# Reading a stateful program through a view

A `View` says which states are healthy, what is seen of a healthy state, and
what a healthy stage may not disturb even though it is not seen. A stage of
the program is then described by one operation on what is seen, and stages
compose: two in sequence, one of two behind a test, a run of any length.

Stages come in two forms. `Steps` is for a function on states; `Runs` is for
a stage that may throw, and says that from a healthy state meeting `p` it
does not.
-/

namespace UempPlugin.Lib

/-- What is seen of a state, when it is healthy, and what it keeps from an
earlier one. -/
structure View (σ τ : Type) where
  good : σ → Prop
  see : σ → τ
  keeps : σ → σ → Prop
  keeps_refl : ∀ s, keeps s s
  keeps_trans : ∀ {s s' s''}, keeps s s' → keeps s' s'' → keeps s s''

namespace View

variable {σ τ ε : Type} {V : View σ τ} {p q : τ → Prop}

/-- `s'` is a healthy successor of `s` that is seen as `t`. -/
structure Next (V : View σ τ) (s : σ) (t : τ) (s' : σ) : Prop where
  good : V.good s'
  see : V.see s' = t
  keeps : V.keeps s s'

theorem Next.self {s : σ} (h : V.good s) : V.Next s (V.see s) s :=
  ⟨h, rfl, V.keeps_refl s⟩

theorem Next.trans {s s' s'' : σ} {t t' : τ} (h : V.Next s t s')
    (h' : V.Next s' t' s'') : V.Next s t' s'' :=
  ⟨h'.good, h'.see, V.keeps_trans h.keeps h'.keeps⟩

/-- The function `f` on states is the operation `op` on what is seen. -/
def Steps (V : View σ τ) (f : σ → σ) (op : τ → τ) : Prop :=
  ∀ s, V.good s → V.Next s (op (V.see s)) (f s)

/-- The stage `f` does not throw and is the operation `op` on what is seen. -/
def Runs (V : View σ τ) (p : τ → Prop) (f : EStateM ε σ Unit) (op : τ → τ) : Prop :=
  ∀ s, V.good s → p (V.see s) → ∃ s', f s = .ok () s' ∧ V.Next s (op (V.see s)) s'

theorem Steps.runs {f : σ → σ} {op : τ → τ} (h : V.Steps f op) :
    V.Runs p (modify f : EStateM ε σ Unit) op :=
  fun s hs _ => ⟨f s, rfl, h s hs⟩

theorem Runs.weaken {f : EStateM ε σ Unit} {op : τ → τ} (h : V.Runs p f op)
    (hp : ∀ t, q t → p t) : V.Runs q f op :=
  fun s hs ht => h s hs (hp _ ht)

theorem Runs.bind {f g : EStateM ε σ Unit} {op op' : τ → τ} (hf : V.Runs p f op)
    (hg : V.Runs q g op') (hp : ∀ t, p t → q (op t)) :
    V.Runs p (f >>= fun _ => g) (fun t => op' (op t)) := by
  intro s hs ht
  obtain ⟨s', he, hn⟩ := hf s hs ht
  obtain ⟨s'', he', hn'⟩ := hg s' hn.good (by rw [hn.see]; exact hp _ ht)
  refine ⟨s'', ?_, ?_⟩
  · show EStateM.bind f (fun _ => g) s = .ok () s''
    rw [EStateM.bind, he]
    exact he'
  · rw [hn.see] at hn'
    exact hn.trans hn'

/-- A run of steps is the run of their operations. -/
theorem steps_foldl {ι : Type} {step : σ → ι → σ} {op : τ → ι → τ} {ok : ι → Prop}
    (h : ∀ i, ok i → V.Steps (step · i) (op · i)) :
    ∀ (is : List ι), (∀ i ∈ is, ok i) →
      V.Steps (fun s => is.foldl step s) (fun t => is.foldl op t) := by
  intro is
  induction is with
  | nil => exact fun _ s hs => Next.self hs
  | cons i is ih =>
      intro hok s hs
      have hi := h i (hok i (by simp)) s hs
      have hrest := ih (fun j hj => hok j (by simp [hj])) (step s i) hi.good
      rw [hi.see] at hrest
      exact hi.trans hrest

end View

/-! ## Whatever happens

A second reading of a stage asks nothing of the state it starts in and covers
the case that it throws: `Leads I f` relates every state to the state `f` ends
in. -/

section Leads

variable {σ ε : Type} {I : σ → σ → Prop}

/-- The state a stage ends in, whether it returned or threw. -/
def final {α : Type} : EStateM.Result ε σ α → σ
  | .ok _ s => s
  | .error _ s => s

def Leads {α : Type} (I : σ → σ → Prop) (f : EStateM ε σ α) : Prop := ∀ s, I s (final (f s))

theorem Leads.modify {f : σ → σ} (h : ∀ s, I s (f s)) : Leads I (modify f : EStateM ε σ Unit) :=
  h

/-- A sequence goes on from where its first part returned. -/
theorem bind_of_ok {α β : Type} {f : EStateM ε σ α} {g : α → EStateM ε σ β} {s s' : σ} {a : α}
    (h : f s = .ok a s') : (f >>= g) s = g a s' := by
  show EStateM.bind f g s = _
  rw [EStateM.bind, h]

/-- It throws what its first part throws. -/
theorem bind_of_error {α β : Type} {f : EStateM ε σ α} {g : α → EStateM ε σ β} {s s' : σ} {e : ε}
    (h : f s = .error e s') : (f >>= g) s = .error e s' := by
  show EStateM.bind f g s = _
  rw [EStateM.bind, h]

theorem Leads.bind {α β : Type} {f : EStateM ε σ α} {g : α → EStateM ε σ β}
    (htrans : ∀ {s s' s''}, I s s' → I s' s'' → I s s'')
    (hf : Leads I f) (hg : ∀ a, Leads I (g a)) : Leads I (f >>= g) := by
  intro s
  have hs := hf s
  cases he : f s with
  | ok a s' =>
      rw [he] at hs
      rw [bind_of_ok he]
      exact htrans hs (hg a s')
  | error e s' =>
      rw [he] at hs
      rw [bind_of_error he]
      exact hs

/-- A sequence that returned did both its parts. -/
theorem bind_ok {α β : Type} {f : EStateM ε σ α} {g : α → EStateM ε σ β} {s s'' : σ} {b : β}
    (h : (f >>= g) s = .ok b s'') : ∃ a s', f s = .ok a s' ∧ g a s' = .ok b s'' := by
  cases he : f s with
  | ok a s' =>
      rw [bind_of_ok he] at h
      exact ⟨a, s', rfl, h⟩
  | error e s' =>
      rw [bind_of_error he] at h
      cases h

/-- A sequence that threw did so in one of its parts. -/
theorem bind_error {α β : Type} {f : EStateM ε σ α} {g : α → EStateM ε σ β} {s s'' : σ} {e : ε}
    (h : (f >>= g) s = .error e s'') :
    f s = .error e s'' ∨ ∃ a s', f s = .ok a s' ∧ g a s' = .error e s'' := by
  cases hf : f s with
  | ok a s' =>
      rw [bind_of_ok hf] at h
      exact .inr ⟨a, s', rfl, h⟩
  | error e' s' =>
      rw [bind_of_error hf] at h
      cases h
      exact .inl rfl

/-- What holds of the state a stage ends in, when the stage returned. -/
theorem Leads.ok {f : EStateM ε σ Unit} {s s' : σ} (h : Leads I f) (he : f s = .ok () s') :
    I s s' := by
  have hs := h s
  rw [he] at hs
  exact hs

end Leads

end UempPlugin.Lib
