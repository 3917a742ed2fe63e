import Mathlib.Data.List.TakeWhile

/-!
# Wide text in UTF-8

Wide text is a list of 32-bit units. A unit that is a Unicode scalar value
stands for itself, and a high surrogate with a low one behind it for a scalar
value beyond the first plane. Nothing else is text: no surrogate on its own,
and nothing above the last code point.

Text can be cut before any unit that is not a surrogate. Cutting it before its
first zero unit is what an interface does that is handed a pointer to it. A
high surrogate at the end may be half of a pair that is yet to come, which a
reader of pieces leaves where it is.
-/

namespace UempPlugin.Lib

/-- U+0000. -/
def nul : Char := Char.ofNat 0

/-- UTF-8. -/
def utf8 (cs : List Char) : List UInt8 := cs.flatMap String.utf8EncodeChar

/-- A unit a surrogate pair starts with. -/
def isHigh (u : UInt32) : Bool := 0xD800 ≤ u.toNat && u.toNat ≤ 0xDBFF

/-- A unit a surrogate pair ends with. -/
def isLow (u : UInt32) : Bool := 0xDC00 ≤ u.toNat && u.toNat ≤ 0xDFFF

/-- The scalar value of a surrogate pair. -/
def paired (u v : UInt32) : Char :=
  Char.ofNat (0x10000 + (u.toNat - 0xD800) * 0x400 + (v.toNat - 0xDC00))

/-- The scalar values that wide text stands for. -/
def scalars : List UInt32 → Option (List Char)
  | [] => some []
  | u :: us =>
      if h : u.isValidChar then (scalars us).map (⟨u, h⟩ :: ·)
      else if isHigh u then
        match us with
        | [] => none
        | v :: us => if isLow v then (scalars us).map (paired u v :: ·) else none
      else none

/-- The units are text. -/
inductive WellFormed : List UInt32 → Prop where
  | nil : WellFormed []
  | scalar {u : UInt32} {us : List UInt32} (h : u.isValidChar) (hus : WellFormed us) :
      WellFormed (u :: us)
  | pair {u v : UInt32} {us : List UInt32} (hu : isHigh u = true) (hv : isLow v = true)
      (hus : WellFormed us) : WellFormed (u :: v :: us)

/-- Without a high surrogate at the end. -/
def whole (us : List UInt32) : List UInt32 :=
  if us.getLast?.any isHigh then us.dropLast else us

/-! ## Scalar values -/

theorem isHigh_invalid {u : UInt32} (h : isHigh u = true) : ¬ u.isValidChar := by
  simp only [isHigh, Bool.and_eq_true, decide_eq_true_eq] at h
  intro hvalid
  rw [UInt32.isValidChar, Nat.isValidChar] at hvalid
  omega

theorem isLow_not_high {u : UInt32} (h : isLow u = true) : isHigh u = false := by
  simp only [isLow, Bool.and_eq_true, decide_eq_true_eq] at h
  rw [isHigh, Bool.and_eq_false_iff, decide_eq_false_iff_not, decide_eq_false_iff_not]
  omega

/-- Text does not end in half a pair. -/
theorem WellFormed.getLast_not_high {us : List UInt32} (h : WellFormed us) :
    us.getLast?.any isHigh = false := by
  have hcons : ∀ {u : UInt32} {us : List UInt32}, isHigh u = false →
      us.getLast?.any isHigh = false → (u :: us).getLast?.any isHigh = false := by
    intro u us hu hus
    cases us with
    | nil => exact hu
    | cons v us => rwa [List.getLast?_cons_cons]
  induction h with
  | nil => rfl
  | scalar hvalid _ ih => exact hcons (Bool.eq_false_iff.2 fun hu => isHigh_invalid hu hvalid) ih
  | pair _ hv _ ih =>
      rw [List.getLast?_cons_cons]
      exact hcons (isLow_not_high hv) ih

theorem WellFormed.whole {us : List UInt32} (h : WellFormed us) : whole us = us := by
  rw [Lib.whole, h.getLast_not_high, if_neg Bool.false_ne_true]

theorem scalars_cons {u : UInt32} (h : u.isValidChar) (us : List UInt32) :
    scalars (u :: us) = (scalars us).map (⟨u, h⟩ :: ·) := by
  rw [scalars.eq_def]
  exact dif_pos h

theorem scalars_pair {u v : UInt32} (hu : isHigh u = true) (hv : isLow v = true)
    (us : List UInt32) : scalars (u :: v :: us) = (scalars us).map (paired u v :: ·) := by
  rw [scalars.eq_def]
  simp only [dif_neg (isHigh_invalid hu), if_pos hu, if_pos hv]

theorem scalars_isSome {us : List UInt32} (h : WellFormed us) : ∃ cs, scalars us = some cs := by
  induction h with
  | nil => exact ⟨[], rfl⟩
  | scalar h _ ih =>
      obtain ⟨cs, hcs⟩ := ih
      exact ⟨_, by rw [scalars_cons h, hcs]; rfl⟩
  | pair hu hv _ ih =>
      obtain ⟨cs, hcs⟩ := ih
      exact ⟨_, by rw [scalars_pair hu hv, hcs]; rfl⟩

theorem scalars_wellFormed (us : List UInt32) {cs : List Char} (h : scalars us = some cs) :
    WellFormed us := by
  induction us using scalars.induct generalizing cs with
  | case1 => exact .nil
  | case2 u us hvalid ih =>
      rw [scalars_cons hvalid] at h
      obtain ⟨cs, hcs, -⟩ := Option.map_eq_some_iff.1 h
      exact .scalar hvalid (ih hcs)
  | case3 u hvalid hu => simp [scalars, hvalid, hu] at h
  | case4 u hvalid hu v us hv ih =>
      rw [scalars_pair hu hv] at h
      obtain ⟨cs, hcs, -⟩ := Option.map_eq_some_iff.1 h
      exact .pair hu hv (ih hcs)
  | case5 u hvalid hu v us hv => simp [scalars, hvalid, hu, hv] at h
  | case6 u us hvalid hu =>
      rw [scalars.eq_def] at h
      simp only [dif_neg hvalid, if_neg hu] at h
      cases h

theorem scalars_isSome_iff {us : List UInt32} :
    (∃ cs, scalars us = some cs) ↔ WellFormed us :=
  ⟨fun ⟨_, h⟩ => scalars_wellFormed us h, scalars_isSome⟩

/-- Text of scalar values alone. -/
theorem scalars_units (cs : List Char) : scalars (cs.map Char.val) = some cs := by
  induction cs with
  | nil => rfl
  | cons c cs ih => rw [List.map_cons, scalars_cons c.valid, ih]; rfl

/-! ## Up to the first zero -/

theorem paired_ne_nul {u v : UInt32} (hu : isHigh u = true) (hv : isLow v = true) :
    paired u v ≠ nul := by
  simp only [isHigh, isLow, Bool.and_eq_true, decide_eq_true_eq] at hu hv
  intro h
  have hnat := congrArg Char.toNat h
  have hvalid :
      Nat.isValidChar (0x10000 + (u.toNat - 0xD800) * 0x400 + (v.toNat - 0xDC00)) := by
    rw [Nat.isValidChar]
    omega
  rw [paired, Char.ofNat, dif_pos hvalid] at hnat
  have hzero : 0x10000 + (u.toNat - 0xD800) * 0x400 + (v.toNat - 0xDC00) = 0 := hnat
  omega

theorem scalar_eq_nul {u : UInt32} (h : u.isValidChar) : (⟨u, h⟩ : Char) = nul ↔ u = 0 :=
  ⟨fun heq => congrArg Char.val heq, fun heq => Char.ext heq⟩

theorem surrogate_ne_zero {u : UInt32} (h : isHigh u = true ∨ isLow u = true) : u ≠ 0 := by
  rintro rfl
  rcases h with h | h <;> cases h

/-- Cutting text before its first zero unit cuts it before its first U+0000. -/
theorem scalars_takeWhile {us : List UInt32} (h : WellFormed us) {cs : List Char}
    (hcs : scalars us = some cs) :
    scalars (us.takeWhile (· ≠ 0)) = some (cs.takeWhile (· ≠ nul)) := by
  induction h generalizing cs with
  | nil =>
      cases hcs
      rfl
  | @scalar u us h _ ih =>
      rw [scalars_cons h] at hcs
      obtain ⟨cs, hus, rfl⟩ := Option.map_eq_some_iff.1 hcs
      by_cases hzero : u = 0
      · rw [List.takeWhile_cons_of_neg (by simpa using hzero),
          List.takeWhile_cons_of_neg (by simpa using (scalar_eq_nul h).2 hzero)]
        rfl
      · rw [List.takeWhile_cons_of_pos (by simpa using hzero),
          List.takeWhile_cons_of_pos (by simpa using mt (scalar_eq_nul h).1 hzero),
          scalars_cons h, ih hus]
        rfl
  | @pair u v us hu hv _ ih =>
      rw [scalars_pair hu hv] at hcs
      obtain ⟨cs, hus, rfl⟩ := Option.map_eq_some_iff.1 hcs
      rw [List.takeWhile_cons_of_pos (by simpa using surrogate_ne_zero (.inl hu)),
        List.takeWhile_cons_of_pos (by simpa using surrogate_ne_zero (.inr hv)),
        List.takeWhile_cons_of_pos (by simpa using paired_ne_nul hu hv),
        scalars_pair hu hv, ih hus]
      rfl

theorem zero_mem_iff {us : List UInt32} (h : WellFormed us) {cs : List Char}
    (hcs : scalars us = some cs) : 0 ∈ us ↔ nul ∈ cs := by
  induction h generalizing cs with
  | nil =>
      cases hcs
      simp
  | scalar h _ ih =>
      rw [scalars_cons h] at hcs
      obtain ⟨cs, hus, rfl⟩ := Option.map_eq_some_iff.1 hcs
      rw [List.mem_cons, List.mem_cons, ih hus, eq_comm, @eq_comm _ nul, scalar_eq_nul h]
  | pair hu hv _ ih =>
      rw [scalars_pair hu hv] at hcs
      obtain ⟨cs, hus, rfl⟩ := Option.map_eq_some_iff.1 hcs
      rw [List.mem_cons, List.mem_cons, List.mem_cons, ih hus]
      simp only [(surrogate_ne_zero (.inl hu)).symm, (surrogate_ne_zero (.inr hv)).symm,
        (paired_ne_nul hu hv).symm, false_or]

theorem takeWhile_ne_eq_self_iff {α : Type} [DecidableEq α] {a : α} {l : List α} :
    l.takeWhile (· ≠ a) = l ↔ a ∉ l := by
  rw [List.takeWhile_eq_self_iff]
  constructor
  · intro h hmem
    exact absurd rfl (of_decide_eq_true (h a hmem))
  · intro h x hx
    exact decide_eq_true fun heq => h (heq ▸ hx)

/-! ## UTF-8 -/

theorem utf8_append (cs cs' : List Char) : utf8 (cs ++ cs') = utf8 cs ++ utf8 cs' :=
  List.flatMap_append

theorem utf8_injective {cs cs' : List Char} (h : utf8 cs = utf8 cs') : cs = cs' := by
  have hbytes : cs.utf8Encode = cs'.utf8Encode := congrArg List.toByteArray h
  have hchars := congrArg ByteArray.utf8Decode? hbytes
  rw [List.utf8Decode?_utf8Encode, List.utf8Decode?_utf8Encode] at hchars
  exact congrArg Array.toList (Option.some.inj hchars)

theorem utf8_prefix {cs cs' : List Char} (h : cs <+: cs') : utf8 cs <+: utf8 cs' := by
  obtain ⟨rest, rfl⟩ := h
  rw [utf8_append]
  exact List.prefix_append _ _

end UempPlugin.Lib
