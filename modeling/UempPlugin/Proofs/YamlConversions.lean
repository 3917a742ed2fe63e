import Mathlib.Data.List.TakeWhile
import UempPlugin.Ref.YamlTool

/-!
# Reading undoes writing

A value of a registered type reads back from the text it is written as. The
one case with an argument in it is `int`: a number is printed without a
leading zero unless it is zero itself, so that reading, which has no base set,
does not take it for octal.
-/

namespace UempPlugin.Ref.YamlTool

open Yaml (Convert intMin intMax digit takeNumber takeSign takeBase decodeInt)

/-! ## Digits -/

theorem toStr_head_ne_zero (n : Nat) : n ≠ 0 → (toStr n).head? ≠ some '0' := by
  induction n using Nat.strongRecOn with
  | ind n ih =>
      intro hn
      rw [toStr]
      rcases Nat.lt_or_ge n 10 with hlt | hge
      · rw [Nat.toDigits_of_lt_base hlt, List.head?_cons]
        intro h
        exact hn (Nat.digitChar_eq_zero.1 (Option.some.inj h))
      · have hrest := ih (n / 10) (Nat.div_lt_self (by omega) (by decide)) (by omega)
        rw [Nat.toDigits_of_base_le (by decide) hge, List.head?_append]
        rw [toStr] at hrest
        cases hd : (Nat.toDigits 10 (n / 10)).head? with
        | none => exact absurd (List.head?_eq_none_iff.1 hd) Nat.toDigits_ne_nil
        | some c =>
            rw [hd] at hrest
            exact hrest

theorem digit_of_isDigit {base : Nat} {c : Char} (h : c.isDigit = true)
    (hbase : c.toNat - 48 < base) : digit base c = some (c.toNat - 48) := by
  have hrange : '0' ≤ c ∧ c ≤ '9' := by
    simpa [Char.isDigit, Char.le_def] using h
  rw [digit]
  simp only [if_pos hrange]
  exact if_pos hbase

theorem isDigit_lt {c : Char} (h : c.isDigit = true) : c.toNat - 48 < 10 := by
  have hrange : '0' ≤ c ∧ c ≤ '9' := by
    simpa [Char.isDigit, Char.le_def] using h
  have h9 : c.toNat ≤ 57 := hrange.2
  omega

/-- All of a printed number is read as one. -/
theorem takeNumber_toStr (n : Nat) : takeNumber 10 (toStr n) = (n, (toStr n).length, []) := by
  have hall : (toStr n).takeWhile (fun c => (digit 10 c).isSome) = toStr n := by
    refine List.takeWhile_eq_self_iff.2 fun c hc => ?_
    rw [digit_of_isDigit (isDigit_toStr hc) (isDigit_lt (isDigit_toStr hc))]
    rfl
  have hvalue : (toStr n).foldl (fun m c => 10 * m + (digit 10 c).getD 0) 0 = n := by
    have hfold : ∀ (cs : Text) (m : Nat), (∀ c ∈ cs, c.isDigit = true) →
        cs.foldl (fun m c => 10 * m + (digit 10 c).getD 0) m = Nat.ofDigitChars 10 cs m := by
      intro cs
      induction cs with
      | nil => intro m _; rfl
      | cons c cs ih =>
          intro m hcs
          have hc := hcs c List.mem_cons_self
          rw [List.foldl_cons, digit_of_isDigit hc (isDigit_lt hc), Nat.ofDigitChars_cons,
            ih _ fun c' hc' => hcs c' (List.mem_cons_of_mem _ hc')]
          rfl
    rw [hfold (toStr n) 0 fun c hc => isDigit_toStr hc]
    exact Nat.ofDigitChars_ten_toDigits
  rw [takeNumber]
  simp only [hall, hvalue, List.drop_length]

/-- No base is read off a printed number, but that of a lone zero. -/
theorem takeBase_toStr (n : Nat) :
    takeBase (toStr n) = (if n = 0 then 8 else 10, toStr n) := by
  split
  · next hn =>
      rw [hn]
      rfl
  · next hn =>
      have hhead := toStr_head_ne_zero n hn
      unfold takeBase
      split
      · next heq =>
          rw [heq] at hhead
          exact absurd rfl hhead
      · next heq =>
          rw [heq] at hhead
          exact absurd rfl hhead
      · next heq =>
          rw [heq] at hhead
          exact absurd rfl hhead
      · rfl

theorem takeSign_toStr (n : Nat) : takeSign (toStr n) = (1, toStr n) := by
  have hno : ∀ c rest, toStr n = c :: rest → c.isDigit = true := fun c rest h =>
    isDigit_toStr (h ▸ List.mem_cons_self)
  unfold takeSign
  split
  · next heq => exact absurd (hno _ _ heq) (by decide)
  · next heq => exact absurd (hno _ _ heq) (by decide)
  · rfl

theorem takeSign_intText (v : Int) :
    takeSign (intText v) = (if v < 0 then -1 else 1, toStr v.natAbs) := by
  rw [intText]
  split
  · rfl
  · exact takeSign_toStr _

theorem decodeInt_intText {v : Int} (h : intMin ≤ v ∧ v ≤ intMax) :
    decodeInt (String.ofList (intText v)) = some v := by
  have hnumber : takeNumber (if v.natAbs = 0 then 8 else 10) (toStr v.natAbs) =
      (v.natAbs, (toStr v.natAbs).length, []) := by
    split
    · next hz =>
        rw [hz]
        decide
    · exact takeNumber_toStr _
  have hcount : (toStr v.natAbs).length ≠ 0 := by
    rw [Ne, List.length_eq_zero_iff]
    exact Nat.toDigits_ne_nil
  have hsign : (if v < 0 then -1 else 1) * (v.natAbs : Int) = v := by
    split <;> omega
  rw [decodeInt, String.toList_ofList, takeSign_intText]
  simp only [takeBase_toStr, hnumber, hsign]
  rw [if_neg (by simp [hcount]), if_pos h]

/-! ## The registered types -/

theorem decode_cint (v : CInt) : Convert.decode (String.ofList (intText v.val)) = some v := by
  show (decodeInt (String.ofList (intText v.val))).bind _ = some v
  rw [decodeInt_intText v.property, Option.bind_some, dif_pos v.property]

theorem decode_bool (b : Bool) : Convert.decode (if b then "true" else "false") = some b := by
  cases b <;> decide

variable {Double : Type} [DoubleText Double]

/-- What `write` puts down, `read` finds. -/
theorem decodeAs_encode {value : Any Double} {text : String} (h : value.encode = .ok text) :
    decodeAs value.type text = some value := by
  cases value with
  | int v =>
      cases h
      rw [Any.type, decodeAs, decode_cint]
      rfl
  | bool v =>
      cases h
      rw [Any.type, decodeAs, decode_bool]
      rfl
  | double v =>
      cases h
      rw [Any.type, decodeAs, DoubleText.decode_encode]
      rfl
  | string v =>
      cases h
      rfl
  | other name => cases h

theorem decodeAs_type {type : TypeIndex} {text : String} {value : Any Double}
    (h : decodeAs type text = some value) : value.type = type := by
  cases type with
  | other name => cases h
  | _ =>
      rw [decodeAs] at h
      obtain ⟨v, _, rfl⟩ := Option.map_eq_some_iff.1 h
      rfl

theorem encode_of_registered {value : Any Double} (h : value.type.registered) :
    ∃ text, value.encode = .ok text := by
  cases value with
  | other name => cases h
  | _ => exact ⟨_, rfl⟩

omit [DoubleText Double] in
theorem encode_of_unregistered {value : Any Double} (h : value.type.registered = false) :
    ∃ name, value = .other name := by
  cases value with
  | other name => exact ⟨name, rfl⟩
  | _ => cases h

end UempPlugin.Ref.YamlTool
