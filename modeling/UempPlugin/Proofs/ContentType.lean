import UempPlugin.Proofs.RequestHeaders

/-!
# The content type of a post

`postJson` and `postForm` promise to set the content type themselves, and do it
by overwriting one key of a map in which `Content-Type` and `content-type` are
two. `headerCallback` folds the names of a response to lower case; nothing does
it on the way out. So the list for libcurl has one content type exactly when
the caller's map has no other spelling of the name.
-/

namespace UempPlugin.Ref.HttpsClient

/-- The name on a line of the list: before the semicolon that asks for a header
without content, or before a colon. -/
def lineName (line : Bytes) : Option Bytes :=
  (blankHeader line).or (if colon ∈ line then some (line.takeWhile (· != colon)) else none)

/-- Is the line one of a content type, as names compare in HTTP? -/
def isContentType (line : Bytes) : Bool := (lineName line).any (casecompare · contentType)

/-- One line has the content type, and it is this one; the other lines are those
of the other entries, each once. -/
structure OneContentType (mimeType : Bytes) (extraHeaders : Headers) (list : List Bytes) :
    Prop where
  one : list.filter isContentType = [headerLine contentType mimeType]
  others : (list.filter (!isContentType ·)).Perm
    ((setHeaders extraHeaders).filter (!isContentType ·))

/-- The name libcurl finds for a key. A key may have a colon of its own, and a
line ends at the first NUL. -/
def keyName (key : Bytes) : Option Bytes :=
  if 0 ∈ key ∧ colon ∉ key.takeWhile (· != 0) then blankHeader (cStr key)
  else some ((cStr key).takeWhile (· != colon))

/-- Another spelling of `Content-Type`. -/
def OtherSpelling (key : Bytes) : Prop :=
  key ≠ contentType ∧ (keyName key).any (casecompare · contentType)

/-! ## The name on a line -/

theorem strUntil_append {delim : UInt8 → Bool} {max : Nat} {p word rest : Bytes}
    (h : strUntil delim max p = some (word, rest)) : word ++ rest = p := by
  rw [strUntil] at h
  split at h
  · cases h
  · split at h
    · cases h
    · cases h
      exact List.takeWhile_append_dropWhile

theorem cStr_append {key : Bytes} (h : 0 ∈ key) (rest : Bytes) : cStr (key ++ rest) = cStr key := by
  induction key with
  | nil => cases h
  | cons b key ih =>
      rw [cStr, cStr, List.cons_append, List.takeWhile_cons, List.takeWhile_cons]
      split
      · next hb =>
        have hmem : 0 ∈ key := by
          rcases List.mem_cons.1 h with rfl | h
          · simp at hb
          · exact h
        exact congrArg (b :: ·) (ih hmem)
      · rfl

theorem cStr_plain {key : Bytes} (h : 0 ∉ key) (rest : Bytes) :
    cStr (key ++ rest) = key ++ cStr rest := by
  rw [cStr, List.takeWhile_append_of_pos]
  · rfl
  · intro b hb
    simp only [bne_iff_ne]
    rintro rfl
    exact h hb

theorem takeWhile_colon (key rest : Bytes) :
    (key ++ colon :: rest).takeWhile (· != colon) = key.takeWhile (· != colon) := by
  induction key with
  | nil => simp
  | cons b key ih =>
      rw [List.cons_append, List.takeWhile_cons, List.takeWhile_cons, ih]

/-- A line that asks for a header without content has no colon. -/
theorem colon_notMem_of_blankHeader {line name : Bytes} (h : blankHeader line = some name) :
    colon ∉ line := by
  rw [blankHeader] at h
  split at h
  · cases h
  · next found p hfound =>
    split at h
    · next hsingle =>
      obtain ⟨hp, hcolon⟩ := hsingle
      have hword := strUntil_append hfound
      cases p with
      | nil => cases hp
      | cons b rest =>
          rw [strSingle] at hp
          split at hp
          · next hb =>
            injection hp with hrest
            subst hb hrest hword
            rw [List.mem_append, List.mem_singleton]
            rintro (hmem | hmem)
            · exact hcolon hmem
            · revert hmem
              decide
          · cases hp
    · cases h

theorem lineName_of_colon {line : Bytes} (h : colon ∈ line) :
    lineName line = some (line.takeWhile (· != colon)) := by
  rw [lineName]
  cases hblank : blankHeader line with
  | none => rw [if_pos h, Option.none_or]
  | some name => exact absurd h (colon_notMem_of_blankHeader hblank)

/-- The value of an entry has no part in the name on its line. -/
theorem lineName_headerLine (key val : Bytes) :
    lineName (cStr (headerLine key val)) = keyName key := by
  rw [keyName, headerLine]
  by_cases hnul : 0 ∈ key
  · rw [cStr_append hnul]
    by_cases hcolon : colon ∈ cStr key
    · rw [if_neg (fun h => h.2 hcolon), lineName_of_colon hcolon]
    · rw [if_pos ⟨hnul, hcolon⟩, lineName, if_neg hcolon, Option.or_none]
  · have hkey : cStr key = key := by simpa [cStr] using cStr_plain hnul []
    have hsep : cStr (colon :: byte ' ' :: val) = colon :: cStr (byte ' ' :: val) := by
      rw [cStr, cStr, List.takeWhile_cons_of_pos (by decide)]
    rw [if_neg (fun h => hnul h.1), cStr_plain hnul, hsep, hkey,
      lineName_of_colon (by simp), takeWhile_colon]

/-! ## The list -/

theorem nodup_toList (headers : Headers) : headers.toList.Nodup := by
  refine headers.distinct_keys_toList.imp fun hne heq => hne ?_
  rw [heq]
  exact Std.ReflCmp.compare_self

theorem toList_insert_perm (headers : Headers) (key val : Bytes) :
    (headers.insert key val).toList.Perm
      ((key, val) :: headers.toList.filter (·.1 != key)) := by
  refine (List.perm_ext_iff_of_nodup (nodup_toList _) ?_).2 fun ⟨name, v⟩ => ?_
  · refine List.nodup_cons.2 ⟨fun h => ?_, (nodup_toList headers).filter _⟩
    simpa using (List.mem_filter.1 h).2
  · rw [Std.ExtTreeMap.mem_toList_iff_getElem?_eq_some, Std.ExtTreeMap.getElem?_insert,
      List.mem_cons, List.mem_filter, Std.ExtTreeMap.mem_toList_iff_getElem?_eq_some]
    by_cases hname : name = key
    · subst hname
      rw [if_pos Std.ReflCmp.compare_self]
      simp [eq_comm]
    · rw [if_neg fun h => hname (Std.LawfulEqCmp.compare_eq_iff_eq.1 h).symm]
      simp [hname]

theorem keyName_contentType : keyName contentType = some contentType := by decide +kernel

/-- Is the line of an entry one of a content type? -/
theorem isContentType_entry (e : Bytes × Bytes) :
    isContentType (cStr (headerLine e.1 e.2)) = (keyName e.1).any (casecompare · contentType) := by
  rw [isContentType, lineName_headerLine]

section Post

variable {mimeType : Bytes} (headers : Headers) (h : 0 ∉ mimeType)

include h

theorem cStr_contentType :
    cStr (headerLine contentType mimeType) = headerLine contentType mimeType := by
  rw [cStr, List.takeWhile_eq_self_iff]
  intro c hc
  rw [headerLine, List.mem_append, List.mem_cons, List.mem_cons] at hc
  simp only [bne_iff_ne]
  rintro rfl
  rcases hc with hc | hc | hc | hc
  · revert hc
    decide +kernel
  · revert hc
    decide
  · revert hc
    decide
  · exact h hc

theorem isContentType_line : isContentType (headerLine contentType mimeType) = true := by
  rw [← cStr_contentType h, isContentType_entry (contentType, mimeType), keyName_contentType]
  decide

/-- The lines of the map a post sends: the content type, and the entries under
other keys. -/
theorem setHeaders_insert_perm :
    (setHeaders (headers.insert contentType mimeType)).Perm
      (headerLine contentType mimeType ::
        (headers.toList.filter (·.1 != contentType)).map fun e => cStr (headerLine e.1 e.2)) := by
  have hperm := (toList_insert_perm headers contentType mimeType).map
    fun e => cStr (headerLine e.1 e.2)
  rw [List.map_cons, cStr_contentType h] at hperm
  exact hperm

/-- Nothing else is lost or sent twice, whatever the caller's keys are. -/
theorem others_perm :
    ((setHeaders (headers.insert contentType mimeType)).filter (!isContentType ·)).Perm
      ((setHeaders headers).filter (!isContentType ·)) := by
  refine ((setHeaders_insert_perm headers h).filter _).trans (.of_eq ?_)
  rw [List.filter_cons_of_neg (by simp [isContentType_line h]), setHeaders, List.filter_map,
    List.filter_map, List.filter_filter]
  refine congrArg _ (List.filter_congr fun e _ => ?_)
  -- the caller's own `Content-Type` is the entry left out here
  by_cases hkey : e.1 = contentType
  · have hct : isContentType (cStr (headerLine e.1 e.2)) = true := by
      rw [isContentType_entry, hkey, keyName_contentType]
      decide
    simp [hct]
  · simp [hkey]

theorem contentTypes_perm :
    ((setHeaders (headers.insert contentType mimeType)).filter isContentType).Perm
      (headerLine contentType mimeType ::
        ((headers.toList.filter (·.1 != contentType)).map
          fun e => cStr (headerLine e.1 e.2)).filter isContentType) := by
  refine ((setHeaders_insert_perm headers h).filter _).trans (.of_eq ?_)
  rw [List.filter_cons_of_pos (isContentType_line h)]

theorem oneContentType_iff :
    OneContentType mimeType headers (setHeaders (headers.insert contentType mimeType)) ↔
      ∀ key ∈ headers, ¬ OtherSpelling key := by
  have hperm := contentTypes_perm headers h
  constructor
  · intro hone key hmem ⟨hne, hspelled⟩
    obtain ⟨val, hval⟩ := Option.isSome_iff_exists.1 (Std.ExtTreeMap.mem_iff_isSome_getElem?.1 hmem)
    have hin : cStr (headerLine key val) ∈
        ((headers.toList.filter (·.1 != contentType)).map
          fun e => cStr (headerLine e.1 e.2)).filter isContentType :=
      List.mem_filter.2 ⟨List.mem_map.2 ⟨(key, val), List.mem_filter.2
        ⟨Std.ExtTreeMap.mem_toList_iff_getElem?_eq_some.2 hval, by simpa using hne⟩, rfl⟩,
        (isContentType_entry (key, val)).trans hspelled⟩
    rw [hone.one] at hperm
    have hlength := hperm.length_eq
    have hpos := List.length_pos_of_mem hin
    simp only [List.length_cons, List.length_nil] at hlength
    omega
  · intro hplain
    refine ⟨?_, others_perm headers h⟩
    have hnone : ((headers.toList.filter (·.1 != contentType)).map
        fun e => cStr (headerLine e.1 e.2)).filter isContentType = [] := by
      rw [List.filter_eq_nil_iff]
      intro line hline hct
      obtain ⟨⟨key, val⟩, he, rfl⟩ := List.mem_map.1 hline
      obtain ⟨hentry, hne⟩ := List.mem_filter.1 he
      have hval := Std.ExtTreeMap.mem_toList_iff_getElem?_eq_some.1 hentry
      have hmem : key ∈ headers := Std.ExtTreeMap.mem_iff_isSome_getElem?.2 (by rw [hval]; rfl)
      exact hplain key hmem ⟨by simpa using hne, (isContentType_entry (key, val)).symm.trans hct⟩
    rw [hnone] at hperm
    exact List.perm_singleton.1 hperm

end Post

/-- A post has one content type exactly when the caller's map has no key that
spells the name in another way. -/
theorem one_content_type (extraHeaders : Headers) :
    (OneContentType jsonType extraHeaders (setHeaders (Method.postJson.allHeaders extraHeaders)) ↔
        ∀ key ∈ extraHeaders, ¬ OtherSpelling key) ∧
      (OneContentType formType extraHeaders
          (setHeaders (Method.postForm.allHeaders extraHeaders)) ↔
        ∀ key ∈ extraHeaders, ¬ OtherSpelling key) :=
  ⟨oneContentType_iff extraHeaders (by decide +kernel),
    oneContentType_iff extraHeaders (by decide +kernel)⟩

/-- With `content-type: a` in the map there are two. -/
theorem two_content_types :
    ∃ extraHeaders : Headers,
      ((setHeaders (Method.postJson.allHeaders extraHeaders)).filter isContentType).length = 2 ∧
        ¬ OneContentType jsonType extraHeaders
          (setHeaders (Method.postJson.allHeaders extraHeaders)) := by
  have htwo : ((setHeaders (Method.postJson.allHeaders
      ((∅ : Headers).insert (contentType.map tolower) [byte 'a']))).filter isContentType).length =
        2 := by
    decide +kernel
  refine ⟨(∅ : Headers).insert (contentType.map tolower) [byte 'a'], htwo, fun h => ?_⟩
  rw [h.one] at htwo
  cases htwo

end UempPlugin.Ref.HttpsClient
