import UempPlugin.Proofs.RequestHeaders
import UempPlugin.Ref.FormBody
import UempPlugin.Spec.FormFields

/-!
# A form reads back

What `curl_easy_escape` writes has neither of the two separators in it, so the
body falls apart where `postForm` joined it, and each part is decoded by itself.
The length that stands for "count it yourself" is only passed for the empty
string, and counting finds nothing there either.
-/

namespace UempPlugin.Ref.HttpsClient

open Spec.FormFields

/-! ## One byte -/

theorem hexValue_udigits : ∀ n < 16, hexValue (udigits.getD n 0) = some n := by decide +kernel

theorem hexDigits_value (c : UInt8) :
    hexValue (udigits.getD (c.toNat / 16) 0) = some (c.toNat / 16) ∧
      hexValue (udigits.getD (c.toNat % 16) 0) = some (c.toNat % 16) := by
  have hlt := c.toNat_lt
  exact ⟨hexValue_udigits _ (by omega), hexValue_udigits _ (by omega)⟩

theorem unreserved_ne {c d : UInt8} (hc : isUnreserved c) (hd : isUnreserved d = false) : c ≠ d := by
  rintro rfl
  rw [hd] at hc
  cases hc

/-- A byte that stands for itself is read as such. -/
theorem decode_cons {c : UInt8} (h : c ≠ byte '%') (rest : Bytes) :
    decode (c :: rest) = plusToSpace c :: decode rest := by
  rcases rest with _ | ⟨d, _ | ⟨e, rest⟩⟩
  · rfl
  · rfl
  · rw [decode, if_neg h]

theorem decode_escapeByte (c : UInt8) (rest : Bytes) :
    decode (escapeByte c ++ rest) = c :: decode rest := by
  rw [escapeByte]
  split
  · next h =>
    have hplus : plusToSpace c = c := if_neg (unreserved_ne h (by decide +kernel))
    rw [List.singleton_append, decode_cons (unreserved_ne h (by decide +kernel)), hplus]
  · obtain ⟨hhi, hlo⟩ := hexDigits_value c
    have hbyte : UInt8.ofNat (16 * (c.toNat / 16) + c.toNat % 16) = c := by
      rw [Nat.div_add_mod, UInt8.ofNat_toNat]
    rw [hexbyte, List.cons_append, List.cons_append, List.cons_append, List.nil_append, decode,
      if_pos rfl]
    simp only [hhi, hlo, hbyte]

/-- No escaped byte is taken for a separator. -/
theorem escapeByte_plain {c d : UInt8} (h : d ∈ escapeByte c) : d ≠ byte '&' ∧ d ≠ byte '=' := by
  have hdigit : ∀ n < 16, udigits.getD n 0 ≠ byte '&' ∧ udigits.getD n 0 ≠ byte '=' := by
    decide +kernel
  have hlt := c.toNat_lt
  rw [escapeByte] at h
  split at h
  · next hc =>
    rw [List.mem_singleton] at h
    subst h
    exact ⟨unreserved_ne hc (by decide +kernel), unreserved_ne hc (by decide +kernel)⟩
  · simp only [hexbyte, List.mem_cons, List.not_mem_nil, or_false] at h
    rcases h with rfl | rfl | rfl
    · decide
    · exact hdigit _ (by omega)
    · exact hdigit _ (by omega)

/-! ## One string -/

theorem easyEscape_length {s : Bytes} (h : s.length ≤ sizeMax / 16) :
    easyEscape s s.length = some (s.flatMap escapeByte) := by
  rw [easyEscape, if_neg (by omega)]
  by_cases hempty : s = []
  · subst hempty
    rfl
  · have hlen : s.length ≠ 0 := fun h => hempty (List.eq_nil_of_length_eq_zero h)
    simp only [Int.natCast_eq_zero, hlen, Int.toNat_natCast, if_false, if_neg (Nat.not_lt.2 h),
      List.take_length]

theorem escaped_eq {s : Bytes} (h : s.length ≤ intMax) : escaped s = s.flatMap escapeByte := by
  have hint : toInt s.length = s.length := by
    rw [toInt, Int.bmod_eq_of_le] <;> omega
  have hsize : intMax ≤ sizeMax / 16 := by decide
  rw [escaped, hint, easyEscape_length (by omega), Option.getD_some]

theorem decode_escaped {s : Bytes} (h : s.length ≤ intMax) : decode (escaped s) = s := by
  rw [escaped_eq h]
  clear h
  induction s with
  | nil => rfl
  | cons c s ih => rw [List.flatMap_cons, decode_escapeByte, ih]

theorem escaped_plain {s : Bytes} (h : s.length ≤ intMax) {d : UInt8} (hd : d ∈ escaped s) :
    d ≠ byte '&' ∧ d ≠ byte '=' := by
  rw [escaped_eq h] at hd
  obtain ⟨c, _, hc⟩ := List.mem_flatMap.1 hd
  exact escapeByte_plain hc

/-! ## The body -/

/-- A pair of the body. -/
def pair (entry : Bytes × Bytes) : Bytes := escaped entry.1 ++ [byte '='] ++ escaped entry.2

theorem formLoop_cons (e : Bytes × Bytes) (entries : List (Bytes × Bytes)) (first : Bool)
    (formBody : Bytes) :
    formLoop (e :: entries) first formBody =
      formLoop entries false ((if !first then formBody ++ [byte '&'] else formBody) ++ pair e) := by
  rw [formLoop, pair]
  simp only [List.append_assoc]

/-- Behind the first pair each one follows an ampersand. -/
theorem formLoop_rest (entries : List (Bytes × Bytes)) (formBody : Bytes) :
    formLoop entries false formBody = formBody ++ (entries.map pair).flatMap (byte '&' :: ·) := by
  induction entries generalizing formBody with
  | nil => rw [formLoop, List.map_nil, List.flatMap_nil, List.append_nil]
  | cons e entries ih =>
      rw [formLoop_cons, ih, if_pos (by rfl), List.map_cons, List.flatMap_cons, List.append_assoc,
        List.append_assoc, List.cons_append, List.nil_append, List.cons_append]

theorem intercalate_cons (sep : UInt8) (part : Bytes) (parts : List Bytes) :
    [sep].intercalate (part :: parts) = part ++ parts.flatMap (sep :: ·) := by
  induction parts generalizing part with
  | nil => simp
  | cons next parts ih =>
      rw [List.intercalate_cons_cons, ih, List.flatMap_cons, List.append_assoc,
        List.singleton_append, List.cons_append]

theorem formBody_eq (formData : Headers) :
    formBody formData = [byte '&'].intercalate (formData.toList.map pair) := by
  rw [formBody]
  cases formData.toList with
  | nil => rfl
  | cons e entries =>
      rw [formLoop_cons, formLoop_rest, if_neg (by decide), List.nil_append, List.map_cons,
        intercalate_cons]

section Pairs

variable {entries : List (Bytes × Bytes)}
  (h : ∀ e ∈ entries, e.1.length ≤ intMax ∧ e.2.length ≤ intMax)

include h

theorem readPair_pair {e : Bytes × Bytes} (he : e ∈ entries) : readPair (pair e) = e := by
  obtain ⟨hkey, hval⟩ := h e he
  have hword : ∀ c ∈ escaped e.1, (c != byte '=') = true :=
    fun c hc => by simpa using (escaped_plain hkey hc).2
  have hrest : ∀ c, (byte '=' :: escaped e.2).head? = some c → ¬ (c != byte '=') = true := by
    rintro c hc
    cases hc
    decide
  have htake : (pair e).takeWhile (· != byte '=') = escaped e.1 := by
    rw [pair, List.append_assoc, List.singleton_append]
    exact takeWhile_stops hword hrest
  have hdrop : (pair e).dropWhile (· != byte '=') = byte '=' :: escaped e.2 := by
    rw [pair, List.append_assoc, List.singleton_append]
    exact dropWhile_stops hword hrest
  rw [readPair, htake, hdrop, List.drop_one, List.tail_cons, decode_escaped hkey,
    decode_escaped hval]

theorem ampersand_notMem_pair {e : Bytes × Bytes} (he : e ∈ entries) : byte '&' ∉ pair e := by
  obtain ⟨hkey, hval⟩ := h e he
  rw [pair, List.mem_append, List.mem_append, List.mem_singleton]
  rintro ((hmem | hmem) | hmem)
  · exact (escaped_plain hkey hmem).1 rfl
  · revert hmem
    decide
  · exact (escaped_plain hval hmem).1 rfl

/-- The pairs of a list, joined by ampersands, are read one by one. -/
theorem readForm_pairs : readForm ([byte '&'].intercalate (entries.map pair)) = entries := by
  by_cases hempty : entries = []
  · subst hempty
    rfl
  · have hsplit : ([byte '&'].intercalate (entries.map pair)).splitOn (byte '&') =
        entries.map pair := by
      refine List.splitOn_intercalate (byte '&') (fun part hpart => ?_) (by simpa using hempty)
      obtain ⟨e, he, rfl⟩ := List.mem_map.1 hpart
      exact ampersand_notMem_pair h he
    have hfilter : (entries.map pair).filter (!·.isEmpty) = entries.map pair := by
      refine List.filter_eq_self.2 fun part hpart => ?_
      obtain ⟨e, _, rfl⟩ := List.mem_map.1 hpart
      simp [pair]
    rw [readForm, hsplit, hfilter, List.map_map]
    exact (List.map_congr_left fun e he => readPair_pair h he).trans (List.map_id' entries)

end Pairs

/-- Reading the body of a form gives the form back, entry by entry in the order
of the names, and a form without entries has no body. -/
theorem form_roundtrip (formData : Headers)
    (h : ∀ key val : Bytes, formData[key]? = some val →
      key.length ≤ intMax ∧ val.length ≤ intMax) :
    readForm (formBody formData) = formData.toList ∧ formBody ∅ = [] := by
  refine ⟨?_, by decide +kernel⟩
  rw [formBody_eq]
  exact readForm_pairs fun e he => h e.1 e.2 (Std.ExtTreeMap.mem_toList_iff_getElem?_eq_some.1 he)

/-- An empty name with the value `=&`, NUL. -/
theorem form_roundtrip_separators :
    let formData := (∅ : Headers).insert [] [byte '=', byte '&', 0]
    (formBody formData = [byte '='] ++ ['%', '3', 'D', '%', '2', '6', '%', '0', '0'].map byte ∧
      readForm (formBody formData) = [([], [byte '=', byte '&', 0])]) := by
  refine ⟨by decide +kernel, ?_⟩
  refine (form_roundtrip _ fun key val h => ?_).1.trans (by decide +kernel)
  rcases insert_entry h with h | ⟨rfl, rfl⟩
  · rw [Std.ExtTreeMap.getElem?_empty] at h
    cases h
  · decide

end UempPlugin.Ref.HttpsClient
