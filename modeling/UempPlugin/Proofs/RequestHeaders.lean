import UempPlugin.Spec.HeaderFields
import Mathlib.Data.List.TakeWhile

/-!
# Which request headers come through

Both ends of the wire are followed: a line of the list is what it was made of
as long as its value is plain text, and then libcurl copies it, unless there is
nothing in it or it is too long; a server gives back the field of such a line.
In the other direction a server never returns a value with a line end or a NUL
in it. So a map is read back exactly when all its values are plain, none is
blank, and nothing is over libcurl's limits.
-/

namespace UempPlugin.Ref.HttpsClient

open UempPlugin.Spec.HeaderFields

/-! ## Bytes -/

theorem tchar_bytes {c : UInt8} (h : isTchar c) :
    c ≠ 0 ∧ c ≠ colon ∧ c ≠ semicolon ∧ c ≠ lf := by
  refine ⟨?_, ?_, ?_, ?_⟩ <;> rintro rfl <;> revert h <;> decide

theorem valueByte_bytes {c : UInt8} : isValueByte c ↔ c ≠ 0 ∧ c ≠ cr ∧ c ≠ lf := by
  simp [isValueByte, and_assoc]

theorem valueByte_not_eol {c : UInt8} (h : isValueByte c) : ¬ isEol c := by
  obtain ⟨_, hcr, hlf⟩ := valueByte_bytes.1 h
  simp [isEol, hcr, hlf]

theorem not_valueByte_not_blank {c : UInt8} (h : ¬ isValueByte c) : ¬ isBlank c := by
  intro hblank
  simp only [isBlank, Bool.or_eq_true, beq_iff_eq] at hblank
  rcases hblank with rfl | rfl <;> exact h (by decide)

/-! ## Words -/

theorem takeWhile_stops {p : UInt8 → Bool} {word rest : Bytes} (hword : ∀ c ∈ word, p c)
    (hrest : ∀ c, rest.head? = some c → ¬ p c) : (word ++ rest).takeWhile p = word := by
  rw [List.takeWhile_append_of_pos hword]
  cases rest with
  | nil => simp
  | cons c rest => rw [List.takeWhile_cons_of_neg (hrest c rfl), List.append_nil]

theorem dropWhile_stops {p : UInt8 → Bool} {word rest : Bytes} (hword : ∀ c ∈ word, p c)
    (hrest : ∀ c, rest.head? = some c → ¬ p c) : (word ++ rest).dropWhile p = rest := by
  rw [List.dropWhile_append_of_pos hword]
  cases rest with
  | nil => rfl
  | cons c rest => rw [List.dropWhile_cons_of_neg (hrest c rfl)]

theorem strUntil_word {delim : UInt8 → Bool} {max : Nat} {word rest : Bytes}
    (hword : ∀ c ∈ word, ¬ delim c) (hrest : ∀ c, rest.head? = some c → delim c) :
    strUntil delim max (word ++ rest) =
      if max < word.length then none else if word = [] then none else some (word, rest) := by
  have htake : (word ++ rest).takeWhile (!delim ·) = word :=
    takeWhile_stops (by simpa using hword) (by simpa using hrest)
  have hdrop : (word ++ rest).dropWhile (!delim ·) = rest :=
    dropWhile_stops (by simpa using hword) (by simpa using hrest)
  rw [strUntil, htake, hdrop]

theorem mem_dropWhile_of_not {p : UInt8 → Bool} {l : Bytes} {c : UInt8} (hc : c ∈ l)
    (hp : ¬ p c) : c ∈ l.dropWhile p := by
  rw [← List.takeWhile_append_dropWhile (p := p) (l := l), List.mem_append] at hc
  rcases hc with hc | hc
  · exact absurd (List.mem_takeWhile_imp hc) hp
  · exact hc

/-- Trimming removes blanks only. -/
theorem mem_trimBlanks {val : Bytes} {c : UInt8} (hc : c ∈ val) (hblank : ¬ isBlank c) :
    c ∈ trimBlanks val := by
  rw [trimBlanks, List.mem_reverse]
  exact mem_dropWhile_of_not (List.mem_reverse.2 (mem_dropWhile_of_not hc hblank)) hblank

theorem mem_of_mem_trimBlanks {val : Bytes} {c : UInt8} (hc : c ∈ trimBlanks val) : c ∈ val := by
  rw [trimBlanks, List.mem_reverse] at hc
  have hrev := (List.dropWhile_sublist isBlank).subset hc
  exact (List.dropWhile_sublist isBlank).subset (List.mem_reverse.1 hrev)

theorem trimBlanks_cons {b : UInt8} (hb : isBlank b) (val : Bytes) :
    trimBlanks (b :: val) = trimBlanks val := by
  rw [trimBlanks, List.dropWhile_cons_of_pos hb, trimBlanks]

/-! ## A line of the list -/

theorem cStr_headerLine {key val : Bytes} (hkey : IsToken key) (hval : ∀ c ∈ val, isValueByte c) :
    cStr (headerLine key val) = headerLine key val := by
  rw [cStr, List.takeWhile_eq_self_iff]
  intro c hc
  rw [headerLine, List.mem_append, List.mem_cons, List.mem_cons] at hc
  rw [bne_iff_ne]
  rcases hc with hc | rfl | rfl | hc
  · exact (tchar_bytes (hkey.2 c hc)).1
  · decide
  · decide
  · exact (valueByte_bytes.1 (hval c hc)).1

/-- There is a colon before any semicolon, so no line asks for a header without
content. -/
theorem blankHeader_headerLine {key : Bytes} (hkey : IsToken key) (val : Bytes) :
    blankHeader (headerLine key val) = none := by
  have hsemi : ∀ c ∈ key, (!(c == semicolon)) = true := by
    intro c hc
    simpa using (tchar_bytes (hkey.2 c hc)).2.2.1
  have hcolon : colon ∈ (headerLine key val).takeWhile (fun c => !(c == semicolon)) := by
    rw [headerLine, List.takeWhile_append_of_pos hsemi,
      List.takeWhile_cons_of_pos (by decide)]
    simp
  rw [blankHeader, strUntil]
  split
  · rfl
  · next name p heq =>
      split at heq
      · cases heq
      · split at heq
        · cases heq
        · injection heq with heq
          injection heq with hname hp
          subst hname
          exact if_neg (fun h => h.2 hcolon)

theorem contentHeader_headerLine {key val : Bytes} (hkey : IsToken key)
    (hval : ∀ c ∈ val, isValueByte c) :
    contentHeader (headerLine key val) = if Sendable key val then some key else none := by
  have hname : ∀ c ∈ key, ¬ (c == colon) = true := by
    intro c hc
    simpa using (tchar_bytes (hkey.2 c hc)).2.1
  have hword : ∀ c ∈ byte ' ' :: val, ¬ isEol c = true := by
    intro c hc
    rcases List.mem_cons.1 hc with rfl | hc
    · decide
    · exact valueByte_not_eol (hval c hc)
  have hcontent : strUntil isEol maxHeaderSize (byte ' ' :: val) =
      if maxHeaderSize < val.length + 1 then none else some (byte ' ' :: val, []) := by
    rw [← List.append_nil (byte ' ' :: val), strUntil_word hword (by simp), List.length_cons,
      if_neg (List.cons_ne_nil _ _), List.append_nil]
  rw [contentHeader, headerLine, strUntil_word hname (by simp), if_neg hkey.1]
  by_cases hlong : maxHeaderSize < key.length
  · rw [if_pos hlong, if_neg]
    intro ⟨_, _, hfit, _⟩
    omega
  · rw [if_neg hlong]
    simp only [strSingle, if_true]
    rw [hcontent]
    by_cases hbig : maxHeaderSize < val.length + 1
    · rw [if_pos hbig, if_pos (by rfl), if_neg]
      intro ⟨_, _, _, hfit⟩
      omega
    · rw [if_neg hbig]
      have htrim : trimBlanks (byte ' ' :: val) = trimBlanks val := trimBlanks_cons (by decide) val
      simp only [Option.map_some, Option.getD_some, htrim]
      by_cases hblank : trimBlanks val = []
      · rw [if_pos hblank, if_neg (fun h => h.1 hblank)]
      · rw [if_neg hblank, if_pos ⟨hblank, hval, by omega, by omega⟩]

/-- What libcurl makes of an entry with plain text in its value. -/
theorem customHeader_headerLine {data : Easy} {key val : Bytes} (hkey : IsToken key)
    (hval : ∀ c ∈ val, isValueByte c) (hheld : data.heldBack key = false) :
    customHeader data (cStr (headerLine key val)) =
      if Sendable key val then some (headerLine key val ++ crlf) else none := by
  rw [cStr_headerLine hkey hval, customHeader, blankHeader_headerLine hkey]
  simp only []
  rw [contentHeader_headerLine hkey hval]
  by_cases hsend : Sendable key val
  · rw [if_pos hsend, if_pos hsend]
    simp [hheld]
  · rw [if_neg hsend, if_neg hsend]

/-! ## The loop -/

/-- The loop succeeds when everything it adds fits, and then adds just that. -/
theorem addLines_ok {data : Easy} {lines : List Bytes} {req sent : Dynbuf} :
    addLines data lines req = .ok sent ↔
      sent.bytes = req.bytes ++ (lines.filterMap (customHeader data)).flatten := by
  induction lines generalizing req with
  | nil =>
      simp only [addLines, List.filterMap_nil, List.flatten_nil, List.append_nil]
      cases req
      cases sent
      simp [eq_comm]
  | cons origp lines ih =>
      rw [addLines]
      cases hline : customHeader data origp with
      | none => rw [List.filterMap_cons_none hline, ih]
      | some line =>
          rw [List.filterMap_cons_some hline, List.flatten_cons, ← List.append_assoc]
          simp only []
          rw [Dynbuf.addf]
          by_cases hfits : (req.bytes ++ line).length < dynHttpRequest
          · rw [dif_pos hfits]
            exact ih
          · rw [dif_neg hfits]
            -- the whole is no shorter than what did not fit
            constructor
            · intro h
              cases h
            · intro h
              have hsent := sent.fits
              rw [h, List.length_append] at hsent
              omega

theorem headerLines_some {method : Method} {headers : Headers} {data : Easy} {req : Dynbuf}
    {text : Bytes} :
    headerLines method headers data req = some text ↔
      text = ((setHeaders (method.allHeaders headers)).filterMap
          (customHeader (method.setup headers data))).flatten ∧
        req.bytes.length + text.length < dynHttpRequest := by
  have hlines : (method.setup headers data).headers = setHeaders (method.allHeaders headers) := rfl
  rw [headerLines, addCustomHeaders, hlines]
  constructor
  · intro h
    split at h
    · cases h
    · next sent hsent =>
        have hbytes := addLines_ok.1 hsent
        have hfits := sent.fits
        rw [hbytes, List.length_append] at hfits
        rw [hbytes, List.drop_left] at h
        injection h with h
        rw [← h]
        exact ⟨rfl, hfits⟩
  · intro ⟨htext, hfits⟩
    rw [← List.length_append] at hfits
    have hsent : addLines (method.setup headers data) (setHeaders (method.allHeaders headers))
        req = .ok ⟨req.bytes ++ text, hfits⟩ := addLines_ok.2 (congrArg (req.bytes ++ ·) htext)
    rw [hsent]
    simp only [List.drop_left]

/-! ## The server -/

theorem chopCr_crlf (line : Bytes) : chopCr (line ++ [cr]) = line := by
  rw [chopCr, if_pos List.getLast?_concat, List.dropLast_concat]

/-- Bytes without a line feed go to the line begun. -/
theorem readFields_append {part : Bytes} (hpart : lf ∉ part) (line text : Bytes) :
    readFields line (part ++ text) = readFields (line ++ part) text := by
  induction part generalizing line with
  | nil => rw [List.nil_append, List.append_nil]
  | cons c part ih =>
      have hc : c ≠ lf := fun h => hpart (h ▸ List.mem_cons_self)
      have htail : lf ∉ part := fun h => hpart (List.mem_cons_of_mem c h)
      rw [List.cons_append, readFields, if_neg hc, ih htail, List.append_assoc,
        List.singleton_append]

theorem readField_headerLine {key val : Bytes} (hkey : IsToken key)
    (hval : ∀ c ∈ val, isValueByte c) :
    readField (headerLine key val) = some (key, trimBlanks val) := by
  have hstop : ∀ c, (colon :: byte ' ' :: val).head? = some c → ¬ isTchar c = true := by
    intro c hc
    injection hc with hc
    subst hc
    decide
  have htrim : trimBlanks (byte ' ' :: val) = trimBlanks val := trimBlanks_cons (by decide) val
  rw [readField, headerLine, takeWhile_stops hkey.2 hstop, dropWhile_stops hkey.2 hstop]
  simp only []
  rw [if_pos, htrim]
  refine ⟨hkey.1, trivial, ?_⟩
  rw [List.all_cons, Bool.and_eq_true]
  exact ⟨by decide, List.all_eq_true.2 hval⟩

theorem readFields_headerLine {key val : Bytes} (hkey : IsToken key)
    (hval : ∀ c ∈ val, isValueByte c) (text : Bytes) :
    readFields [] (headerLine key val ++ crlf ++ text) =
      (readFields [] text).map ((key, trimBlanks val) :: ·) := by
  have hlf : lf ∉ headerLine key val ++ [cr] := by
    intro h
    simp only [headerLine, List.mem_append, List.mem_cons, List.not_mem_nil, or_false] at h
    rcases h with (h | h | h | h) | h
    · exact (tchar_bytes (hkey.2 lf h)).2.2.2 rfl
    · exact absurd h (by decide)
    · exact absurd h (by decide)
    · exact (valueByte_bytes.1 (hval lf h)).2.2 rfl
    · exact absurd h (by decide)
  have hsplit : headerLine key val ++ crlf ++ text =
      (headerLine key val ++ [cr]) ++ lf :: text := by simp [crlf]
  rw [hsplit, readFields_append hlf, List.nil_append, readFields, if_pos rfl, chopCr_crlf,
    readField_headerLine hkey hval]
  cases readFields [] text <;> rfl

/-- Entries with plain text are read back as they were written. -/
theorem readFields_block {entries : List (Bytes × Bytes)} (hkey : ∀ e ∈ entries, IsToken e.1)
    (hval : ∀ e ∈ entries, ∀ c ∈ e.2, isValueByte c) :
    readFields [] (block entries) = some (entries.map fun e => (e.1, trimBlanks e.2)) := by
  induction entries with
  | nil => rfl
  | cons e entries ih =>
      have htail := ih (fun e he => hkey e (List.mem_cons_of_mem _ he))
        (fun e he => hval e (List.mem_cons_of_mem _ he))
      rw [block, List.flatMap_cons, readFields_headerLine (hkey e List.mem_cons_self)
        (hval e List.mem_cons_self)]
      change (readFields [] (block entries)).map _ = _
      rw [htail, Option.map_some, List.map_cons]

theorem readField_value {line name val : Bytes} (h : readField line = some (name, val)) :
    ∀ c ∈ val, isValueByte c := by
  rw [readField] at h
  split at h
  · cases h
  · next b rest heq =>
      split at h
      · next hfield =>
          injection h with h
          injection h with _ hval
          subst hval
          intro c hc
          exact List.all_eq_true.1 hfield.2.2 c (mem_of_mem_trimBlanks hc)
      · cases h

/-- Whatever the text, no value read out of it has a line end or a NUL. -/
theorem readFields_value {line text : Bytes} {fields : List (Bytes × Bytes)}
    (h : readFields line text = some fields) :
    ∀ field ∈ fields, ∀ c ∈ field.2, isValueByte c := by
  induction text generalizing line fields with
  | nil =>
      rw [readFields] at h
      split at h
      · injection h with h
        subst h
        exact fun _ hmem => absurd hmem List.not_mem_nil
      · cases h
  | cons c text ih =>
      rw [readFields] at h
      split at h
      · obtain ⟨field, hfield, h⟩ := Option.bind_eq_some_iff.1 h
        obtain ⟨rest, hrest, h⟩ := Option.bind_eq_some_iff.1 h
        injection h with h
        subst h
        intro f hf
        rcases List.mem_cons.1 hf with rfl | hf
        · exact readField_value hfield
        · exact ih hrest f hf
      · exact ih h

/-! ## From the map to the fields -/

/-- The lines libcurl writes of entries with plain text in their values. -/
theorem filterMap_headerLine {data : Easy} {entries : List (Bytes × Bytes)}
    (hkey : ∀ e ∈ entries, IsToken e.1 ∧ data.heldBack e.1 = false)
    (hval : ∀ e ∈ entries, ∀ c ∈ e.2, isValueByte c) :
    ((entries.map fun e => cStr (headerLine e.1 e.2)).filterMap (customHeader data)).flatten =
      block (entries.filter fun e => Sendable e.1 e.2) := by
  induction entries with
  | nil => rfl
  | cons e entries ih =>
      have htail := ih (fun e he => hkey e (List.mem_cons_of_mem _ he))
        (fun e he => hval e (List.mem_cons_of_mem _ he))
      have hhead := customHeader_headerLine (hkey e List.mem_cons_self).1
        (hval e List.mem_cons_self) (hkey e List.mem_cons_self).2
      rw [List.map_cons]
      by_cases hsend : Sendable e.1 e.2
      · rw [if_pos hsend] at hhead
        rw [List.filterMap_cons_some hhead, List.flatten_cons, htail,
          List.filter_cons_of_pos (by simpa using hsend), block, block, List.flatMap_cons]
      · rw [if_neg hsend] at hhead
        rw [List.filterMap_cons_none hhead, htail, List.filter_cons_of_neg (by simpa using hsend)]

theorem not_heldBack_of_not_special {data : Easy} {name : Bytes} (h : ¬ Special name) :
    data.heldBack name = false := by
  have hcheck : ∀ check ∈ specialNames, casecompare name check = false := by
    intro check hmem
    rw [← Bool.not_eq_true]
    exact fun hname => h ⟨check, hmem, hname⟩
  simp only [specialNames, List.forall_mem_cons] at hcheck
  obtain ⟨hhost, hconn, hte, hauth, hcookie, hlen, htype, _⟩ := hcheck
  simp [Easy.heldBack, hhost, hconn, hte, hauth, hcookie, hlen, htype]

theorem not_heldBack_contentType (method : Method) (headers : Headers) (data : Easy) :
    (method.setup headers data).heldBack contentType = false := by
  have hhost : casecompare contentType hostName = false := by decide
  have hlen : casecompare contentType contentLength = false := by decide
  have hconn : casecompare contentType connection = false := by decide
  have hte : casecompare contentType transferEncoding = false := by decide
  have hauth : casecompare contentType authorization = false := by decide
  have hcookie : casecompare contentType cookie = false := by decide
  have hreq : (method.setup headers data).httpreq = method.httpreq := rfl
  rw [Easy.heldBack, hhost, hlen, hconn, hte, hauth, hcookie, hreq]
  cases method <;> simp [Method.httpreq]

theorem insert_entry {headers : Headers} {key v name val : Bytes}
    (h : (headers.insert key v)[name]? = some val) :
    headers[name]? = some val ∨ name = key ∧ val = v := by
  rw [Std.ExtTreeMap.getElem?_insert] at h
  split at h
  · next hname =>
      injection h with h
      exact Or.inr ⟨(Std.LawfulEqCmp.compare_eq_iff_eq.1 hname).symm, h.symm⟩
  · exact Or.inl h

/-- An entry of the map a request sends is the caller's or the content type. -/
theorem allHeaders_entry {method : Method} {headers : Headers} {name val : Bytes}
    (h : (method.allHeaders headers)[name]? = some val) :
    headers[name]? = some val ∨ name = contentType ∧ (val = jsonType ∨ val = formType) := by
  cases method with
  | get => exact Or.inl h
  | postJson =>
      rcases insert_entry h with h | ⟨hname, hval⟩
      · exact Or.inl h
      · exact Or.inr ⟨hname, Or.inl hval⟩
  | postForm =>
      rcases insert_entry h with h | ⟨hname, hval⟩
      · exact Or.inl h
      · exact Or.inr ⟨hname, Or.inr hval⟩

/-- Only the content type is replaced. -/
theorem allHeaders_keeps (method : Method) {headers : Headers} {name : Bytes}
    (hname : name ≠ contentType) : (method.allHeaders headers)[name]? = headers[name]? := by
  have hcompare : ¬ compare contentType name = .eq :=
    fun h => hname (Std.LawfulEqCmp.compare_eq_iff_eq.1 h).symm
  cases method with
  | get => rfl
  | postJson => rw [Method.allHeaders, Std.ExtTreeMap.getElem?_insert, if_neg hcompare]
  | postForm => rw [Method.allHeaders, Std.ExtTreeMap.getElem?_insert, if_neg hcompare]

theorem special_contentType : Special contentType :=
  ⟨contentType, by decide, by decide⟩

section Request

variable (method : Method) {headers : Headers} (data : Easy)

theorem allHeaders_names (htoken : ∀ name ∈ headers, IsToken name)
    (hplain : ∀ name ∈ headers, ¬ Special name) :
    ∀ e ∈ (method.allHeaders headers).toList,
      IsToken e.1 ∧ (method.setup headers data).heldBack e.1 = false := by
  intro ⟨name, val⟩ he
  rcases allHeaders_entry (Std.ExtTreeMap.mem_toList_iff_getElem?_eq_some.1 he) with
    hentry | ⟨rfl, _⟩
  · have hmem : name ∈ headers := Std.ExtTreeMap.mem_iff_isSome_getElem?.2 (by rw [hentry]; rfl)
    exact ⟨htoken name hmem, not_heldBack_of_not_special (hplain name hmem)⟩
  · exact ⟨(by decide +kernel : IsToken contentType), not_heldBack_contentType method headers data⟩

/-- The content type comes through, so only the caller's entries count. -/
theorem allHeaders_sendable (hplain : ∀ name ∈ headers, ¬ Special name) :
    (∀ e ∈ (method.allHeaders headers).toList, Sendable e.1 e.2) ↔
      ∀ name val, headers[name]? = some val → Sendable name val := by
  constructor
  · intro h name val hentry
    have hmem : name ∈ headers := Std.ExtTreeMap.mem_iff_isSome_getElem?.2 (by rw [hentry]; rfl)
    have hname : name ≠ contentType := by
      rintro rfl
      exact hplain _ hmem special_contentType
    rw [← allHeaders_keeps method hname] at hentry
    exact h (name, val) (Std.ExtTreeMap.mem_toList_iff_getElem?_eq_some.2 hentry)
  · intro h ⟨name, val⟩ he
    rcases allHeaders_entry (Std.ExtTreeMap.mem_toList_iff_getElem?_eq_some.1 he) with
      hentry | ⟨rfl, rfl | rfl⟩
    · exact h name val hentry
    · decide +kernel
    · decide +kernel

/-- With plain text in every value, the request has the lines of the entries
that come through. -/
theorem headerLines_plain {req : Dynbuf} {text : Bytes}
    (htoken : ∀ name ∈ headers, IsToken name) (hplain : ∀ name ∈ headers, ¬ Special name)
    (hval : ∀ e ∈ (method.allHeaders headers).toList, ∀ c ∈ e.2, isValueByte c) :
    headerLines method headers data req = some text ↔
      text = block ((method.allHeaders headers).toList.filter fun e => Sendable e.1 e.2) ∧
        req.bytes.length + text.length < dynHttpRequest := by
  rw [headerLines_some, setHeaders,
    filterMap_headerLine (allHeaders_names method data htoken hplain) hval]

variable {method data} in
theorem Faithful.plain {req : Dynbuf} (h : Faithful method headers data req) :
    ∀ e ∈ (method.allHeaders headers).toList, ∀ c ∈ e.2, isValueByte c := by
  obtain ⟨text, _, hread⟩ := Option.bind_eq_some_iff.1 h
  intro e he c hc
  by_contra hbad
  have hfield := readFields_value hread _ (List.mem_map_of_mem he) c
    (mem_trimBlanks hc (not_valueByte_not_blank hbad))
  exact hbad hfield

end Request

/-- A request's header section reads back as the caller's map, with the content
type a post adds, exactly when every value has content and no NUL or line end,
and libcurl's limits on a name, on a value and on the request are kept. -/
theorem request_headers_faithful (method : Method) (headers : Headers) (data : Easy)
    (req : Dynbuf) (htoken : ∀ name ∈ headers, IsToken name)
    (hplain : ∀ name ∈ headers, ¬ Special name) :
    Faithful method headers data req ↔
      (∀ name val, headers[name]? = some val → Sendable name val) ∧
        req.bytes.length + (block (method.allHeaders headers).toList).length < dynHttpRequest := by
  rw [← allHeaders_sendable method hplain]
  have hnames := allHeaders_names method data htoken hplain
  constructor
  · intro h
    have hval := Faithful.plain h
    obtain ⟨text, htext, hread⟩ := Option.bind_eq_some_iff.1 h
    obtain ⟨rfl, hfits⟩ := (headerLines_plain method data htoken hplain hval).1 htext
    -- what was read back is as long as what was asked for, so nothing was left out
    rw [readFields_block (fun e he => (hnames e (List.mem_of_mem_filter he)).1)
      (fun e he => hval e (List.mem_of_mem_filter he))] at hread
    injection hread with hread
    have hlength := congrArg List.length hread
    rw [List.length_map, fieldsOf, List.length_map] at hlength
    have hall := List.length_filter_eq_length_iff.1 hlength
    have hsend : ∀ e ∈ (method.allHeaders headers).toList, Sendable e.1 e.2 :=
      fun e he => of_decide_eq_true (hall e he)
    rw [List.filter_eq_self.2 hall] at hfits
    exact ⟨hsend, hfits⟩
  · intro ⟨hsend, hfits⟩
    have hval : ∀ e ∈ (method.allHeaders headers).toList, ∀ c ∈ e.2, isValueByte c :=
      fun e he => (hsend e he).2.1
    have hfilter : ((method.allHeaders headers).toList.filter fun e => Sendable e.1 e.2) =
        (method.allHeaders headers).toList :=
      List.filter_eq_self.2 (fun e he => decide_eq_true (hsend e he))
    have htext := (headerLines_plain method data htoken hplain hval).2 ⟨by rw [hfilter], hfits⟩
    rw [Faithful, htext, Option.bind_some, readFields_block (fun e he => (hnames e he).1) hval]
    rfl

theorem mem_single {key val name : Bytes} (h : name ∈ (∅ : Headers).insert key val) :
    name = key := by
  rw [Std.ExtTreeMap.mem_insert] at h
  rcases h with h | h
  · exact (Std.LawfulEqCmp.compare_eq_iff_eq.1 h).symm
  · exact absurd h Std.ExtTreeMap.not_mem_empty

/-- `X: a b` is posted as it is. -/
theorem request_headers_posted :
    Faithful .postJson ((∅ : Headers).insert [byte 'X'] [byte 'a', byte ' ', byte 'b'])
      ⟨true, .get, false, false, 11, []⟩ ⟨[], by decide⟩ := by
  refine (request_headers_faithful _ _ _ _ ?_ ?_).2 ⟨?_, by decide +kernel⟩
  · intro name hname
    cases mem_single hname
    decide +kernel
  · intro name hname
    cases mem_single hname
    decide +kernel
  · intro name val h
    rcases insert_entry h with h | ⟨rfl, rfl⟩
    · rw [Std.ExtTreeMap.getElem?_empty] at h
      cases h
    · decide +kernel

/-- A value `a`, CR, LF, `Y:1` is read back as two fields, a blank value as
none. -/
theorem request_headers_split :
    let data : Easy := ⟨true, .get, false, false, 11, []⟩
    let req : Dynbuf := ⟨[], by decide⟩
    let split := (∅ : Headers).insert [byte 'X'] [byte 'a', cr, lf, byte 'Y', colon, byte '1']
    let blank := (∅ : Headers).insert [byte 'X'] [byte ' ']
    (∀ name ∈ split, IsToken name ∧ ¬ Special name) ∧
      (headerLines .get split data req).bind (readFields []) =
        some [([byte 'X'], [byte 'a']), ([byte 'Y'], [byte '1'])] ∧
      ¬ Faithful .get split data req ∧
      (∀ name ∈ blank, IsToken name ∧ ¬ Special name) ∧
      (headerLines .get blank data req).bind (readFields []) = some [] ∧
      ¬ Faithful .get blank data req := by
  refine ⟨?_, by decide +kernel, by decide +kernel, ?_, by decide +kernel, by decide +kernel⟩
  · intro name hname
    cases mem_single hname
    decide +kernel
  · intro name hname
    cases mem_single hname
    decide +kernel

end UempPlugin.Ref.HttpsClient
