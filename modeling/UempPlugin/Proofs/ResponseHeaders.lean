import UempPlugin.Lib.LastWrite
import UempPlugin.Ref.HttpClient
import Mathlib.Data.List.TakeWhile

/-!
# What the response headers remember

A header line is read by its grammar, name, colon, blanks, value, line end,
and `headerCallback` stores exactly the field that grammar finds. The buffer
of a request is therefore a table built by overwriting, and it is never
emptied: a redirect's or an interim response's fields stay in it under every
name the responses after it do not carry. The main theorem says when that
cannot be seen.
-/

namespace UempPlugin.Ref.HttpsClient

open UempPlugin.Lib

/-! ## Lines -/

/-- `line` is the field with the lower-cased name `key` and the value `val`. -/
def IsField (line key val : Bytes) : Prop :=
  ¬ httpPrefix <+: line ∧
    ∃ name blanks eol, line = name ++ colon :: (blanks ++ val ++ eol) ∧
      colon ∉ name ∧ name.map tolower = key ∧
      (∀ c ∈ blanks, isBlank c) ∧ (∀ c ∈ eol, isEol c) ∧
      (∀ c, val.head? = some c → ¬ isBlank c) ∧ (∀ c, val.getLast? = some c → ¬ isEol c)

theorem popEol_append {line eol : Bytes} (heol : ∀ c ∈ eol, isEol c)
    (hlast : ∀ c, line.getLast? = some c → ¬ isEol c) : popEol (line ++ eol) = line := by
  rw [popEol, List.reverse_append,
    List.dropWhile_append_of_pos (fun c hc => heol c (List.mem_reverse.1 hc))]
  cases hrev : line.reverse with
  | nil => simpa using hrev.symm
  | cons c cs =>
      have hc := hlast c (by rw [← List.head?_reverse, hrev, List.head?_cons])
      rw [List.dropWhile_cons_of_neg hc, ← hrev, List.reverse_reverse]

/-- Every line is what `popEol` leaves of it and a line end. -/
theorem popEol_spec (line : Bytes) :
    ∃ eol, line = popEol line ++ eol ∧ (∀ c ∈ eol, isEol c) ∧
      ∀ c, (popEol line).getLast? = some c → ¬ isEol c := by
  refine ⟨(line.reverse.takeWhile isEol).reverse, ?_, ?_, ?_⟩
  · rw [popEol, ← List.reverse_append, List.takeWhile_append_dropWhile, List.reverse_reverse]
  · intro c hc
    exact List.mem_takeWhile_imp (List.mem_reverse.1 hc)
  · intro c hc
    rw [popEol, List.getLast?_reverse] at hc
    have hnot := List.head?_dropWhile_not isEol line.reverse
    rw [hc] at hnot
    simpa using hnot

theorem idxOf?_eq_some_split {a : UInt8} {l : Bytes} {i : Nat} :
    l.idxOf? a = some i ↔ ∃ pre post, l = pre ++ a :: post ∧ a ∉ pre ∧ i = pre.length := by
  rw [List.idxOf?_eq_some_iff]
  constructor
  · intro ⟨hi, hget, hbefore⟩
    refine ⟨l.take i, l.drop (i + 1), ?_, ?_, ?_⟩
    · rw [← hget, List.getElem_cons_drop, List.take_append_drop]
    · intro hmem
      obtain ⟨j, hj, hja⟩ := List.mem_iff_getElem.1 hmem
      rw [List.length_take] at hj
      rw [List.getElem_take] at hja
      exact hbefore j (by omega) hja
    · rw [List.length_take]
      omega
  · intro ⟨pre, post, hl, hpre, hi⟩
    subst hl hi
    refine ⟨by simp, by simp, ?_⟩
    intro j hj hja
    rw [List.getElem_append_left hj] at hja
    exact hpre (hja ▸ List.getElem_mem hj)

theorem blank_not_eol {c : UInt8} (h : isBlank c) : ¬ isEol c := by
  simp only [isBlank, isEol, Bool.or_eq_true, beq_iff_eq] at h ⊢
  rcases h with rfl | rfl <;> decide

/-- What is stored for a line split at its colon. -/
theorem headerField_of_split {line name rest : Bytes} (hhttp : ¬ httpPrefix <+: line)
    (hpop : popEol line = name ++ colon :: rest) (hname : colon ∉ name) :
    headerField line = some (name.map tolower, rest.dropWhile isBlank) := by
  have hmem : colon ∈ line := by
    obtain ⟨eol, hline, -, -⟩ := popEol_spec line
    rw [hline, hpop]
    simp
  have hfull : ¬ (line = [cr, lf] ∨ line = [lf]) := by
    intro h
    cases h with
    | inl h => exact absurd (h ▸ hmem) (by decide)
    | inr h => exact absurd (h ▸ hmem) (by decide)
  have hpos : (name ++ colon :: rest).idxOf? colon = some name.length :=
    idxOf?_eq_some_split.2 ⟨name, rest, rfl, hname, rfl⟩
  have hdrop : (name ++ colon :: rest).drop (name.length + 1) = rest := by
    simp [List.drop_append]
  rw [headerField, if_neg hhttp, if_neg hfull]
  simp only [hpop, hpos, hdrop, List.take_left]

/-- Only a line that is no status line and has a colon is stored. -/
theorem split_of_headerField {line : Bytes} {kv : Bytes × Bytes}
    (h : headerField line = some kv) :
    ¬ httpPrefix <+: line ∧ ∃ name rest, popEol line = name ++ colon :: rest ∧ colon ∉ name := by
  rw [headerField] at h
  by_cases hhttp : httpPrefix <+: line
  · rw [if_pos hhttp] at h
    cases h
  · by_cases hempty : line = [cr, lf] ∨ line = [lf]
    · rw [if_neg hhttp, if_pos hempty] at h
      cases h
    · rw [if_neg hhttp, if_neg hempty] at h
      cases hpos : (popEol line).idxOf? colon with
      | none => simp [hpos] at h
      | some pos =>
          obtain ⟨name, rest, hline, hname, -⟩ := idxOf?_eq_some_split.1 hpos
          exact ⟨hhttp, name, rest, hline, hname⟩

theorem getLast?_line {name blanks val : Bytes} {c : UInt8}
    (hc : (name ++ colon :: (blanks ++ val)).getLast? = some c) :
    val.getLast? = some c ∨ c ∈ blanks ∨ c = colon := by
  rw [List.getLast?_append, List.getLast?_cons, Option.some_or, List.getLast?_append] at hc
  cases hval : val.getLast? with
  | some c' =>
      rw [hval] at hc
      exact .inl hc
  | none =>
      rw [hval, Option.none_or] at hc
      cases hbl : blanks.getLast? with
      | some c' =>
          rw [hbl] at hc
          exact .inr (.inl (List.mem_of_getLast? (hbl.trans hc)))
      | none =>
          rw [hbl] at hc
          exact .inr (.inr (Option.some.inj hc).symm)

/-- The callback stores the field the line is, and nothing for a line that is
none: a status line, an empty line, a line without a colon. -/
theorem headerField_eq_some_iff (line key val : Bytes) :
    headerField line = some (key, val) ↔ IsField line key val := by
  constructor
  · intro h
    obtain ⟨hhttp, name, rest, hpop, hname⟩ := split_of_headerField h
    obtain ⟨eol, hline, heol, hlast⟩ := popEol_spec line
    rw [headerField_of_split hhttp hpop hname, Option.some.injEq, Prod.mk.injEq] at h
    obtain ⟨hkey, hval⟩ := h
    have hrest : rest = rest.takeWhile isBlank ++ val := by
      rw [← hval, List.takeWhile_append_dropWhile]
    refine ⟨hhttp, name, rest.takeWhile isBlank, eol, ?_, hname, hkey,
      fun c hc => List.mem_takeWhile_imp hc, heol, ?_, ?_⟩
    · rw [← hrest, ← List.cons_append, ← List.append_assoc, ← hpop]
      exact hline
    · intro c hc
      have hnot := List.head?_dropWhile_not isBlank rest
      rw [hval, hc] at hnot
      simpa using hnot
    · intro c hc
      apply hlast c
      rw [hpop, hrest, List.getLast?_append, List.getLast?_cons, List.getLast?_append, hc]
      rfl
  · intro ⟨hhttp, name, blanks, eol, hline, hname, hkey, hblanks, heol, hhead, hlast⟩
    have hpop : popEol line = name ++ colon :: (blanks ++ val) := by
      rw [hline, show name ++ colon :: (blanks ++ val ++ eol) =
        (name ++ colon :: (blanks ++ val)) ++ eol by simp]
      apply popEol_append heol
      intro c hc
      rcases getLast?_line hc with hval | hbl | hcolon
      · exact hlast c hval
      · exact blank_not_eol (hblanks c hbl)
      · rw [hcolon]
        decide
    rw [headerField_of_split hhttp hpop hname, hkey, List.dropWhile_append_of_pos hblanks]
    cases val with
    | nil => rfl
    | cons c cs => rw [List.dropWhile_cons_of_neg (hhead c rfl)]

/-! ## The buffer of a request -/

/-- The fields of a sequence of calls are what is written to the table. -/
theorem headerBuffer_eq (calls : List Bytes) :
    headerBuffer calls = writeAll ∅ (calls.filterMap headerField) := by
  have hrun : ∀ (headers : Headers),
      calls.foldl (fun userp data => (headerCallback data userp).2) (some headers) =
        some (writeAll headers (calls.filterMap headerField)) := by
    induction calls with
    | nil => exact fun _ => rfl
    | cons data calls ih =>
        intro headers
        rw [List.foldl_cons, headerCallback]
        cases hfield : headerField data with
        | none => rw [List.filterMap_cons_none hfield, ih]
        | some kv =>
            rw [List.filterMap_cons_some hfield, ih]
            rfl
  rw [headerBuffer, hrun, Option.getD_some]

/-- A name has the value it was last written with. -/
theorem headerBuffer_lastWrite (calls : List Bytes) (key : Bytes) :
    (headerBuffer calls)[key]? = lastWrite key (calls.filterMap headerField) := by
  rw [headerBuffer_eq, getElem?_writeAll, Std.ExtTreeMap.getElem?_empty, Option.or_none]

/-- `val` is what the last of the lines with a field named `key` gives it. -/
def LastField (calls : List Bytes) (key val : Bytes) : Prop :=
  ∃ pre line post, calls = pre ++ line :: post ∧ IsField line key val ∧
    ∀ later ∈ post, ∀ val', ¬ IsField later key val'

theorem mem_fields_iff {calls : List Bytes} {key val : Bytes} :
    (key, val) ∈ calls.filterMap headerField ↔ ∃ line ∈ calls, IsField line key val := by
  simp only [List.mem_filterMap, headerField_eq_some_iff]

theorem lastField_iff {calls : List Bytes} {key val : Bytes} :
    lastWrite key (calls.filterMap headerField) = some val ↔ LastField calls key val := by
  rw [lastWrite_eq_some]
  constructor
  · intro ⟨pre, post, hfields, hpost⟩
    obtain ⟨before, rest, hcalls, -, hrest⟩ := List.filterMap_eq_append_iff.1 hfields
    obtain ⟨skipped, line, after, hsplit, -, hline, hafter⟩ := List.filterMap_eq_cons_iff.1 hrest
    refine ⟨before ++ skipped, line, after, ?_, (headerField_eq_some_iff _ _ _).1 hline, ?_⟩
    · rw [hcalls, hsplit, List.append_assoc]
    · intro later hlater val' hfield
      refine hpost val' ?_
      rw [← hafter, mem_fields_iff]
      exact ⟨later, hlater, hfield⟩
  · intro ⟨pre, line, post, hcalls, hline, hpost⟩
    refine ⟨pre.filterMap headerField, post.filterMap headerField, ?_, ?_⟩
    · rw [hcalls, List.filterMap_append,
        List.filterMap_cons_some ((headerField_eq_some_iff _ _ _).2 hline)]
    · intro val' hmem
      obtain ⟨later, hlater, hfield⟩ := mem_fields_iff.1 hmem
      exact hpost later hlater val' hfield

/-- Every name the buffer knows, it knows by its last field. -/
theorem headerBuffer_getElem? (calls : List Bytes) (key val : Bytes) :
    (headerBuffer calls)[key]? = some val ↔ LastField calls key val := by
  rw [headerBuffer_lastWrite, lastField_iff]

/-! ## Blocks -/

/-- The header lines of one response: the status line, the fields, the empty
line. -/
structure Block where
  status : Bytes
  fields : List Bytes
  blank : Bytes
  isStatus : httpPrefix <+: status
  isEmpty : blank = [cr, lf] ∨ blank = [lf]

/-- The calls libcurl makes for a block. -/
def Block.calls (b : Block) : List Bytes := b.status :: b.fields ++ [b.blank]

/-- The calls libcurl makes for the responses of one request. -/
def deliver (blocks : List Block) : List Bytes := blocks.flatMap Block.calls

/-- The block has a field of that name. -/
def Block.Carries (b : Block) (key : Bytes) : Prop := ∃ line ∈ b.fields, ∃ val, IsField line key val

theorem Block.carries_iff (b : Block) (key : Bytes) :
    (∀ val, (key, val) ∉ b.calls.filterMap headerField) ↔ ¬ b.Carries key := by
  simp only [mem_fields_iff]
  constructor
  · intro h ⟨line, hline, val, hfield⟩
    exact h val ⟨line, by simp [calls, hline], hfield⟩
  · intro h val ⟨line, hline, hfield⟩
    have hmem : line = b.status ∨ line ∈ b.fields ∨ line = b.blank := by
      simpa [calls] using hline
    rcases hmem with hstatus | hline | hblank
    · exact hfield.1 (hstatus ▸ b.isStatus)
    · exact h ⟨line, hline, val, hfield⟩
    · have hnone : headerField line = none := by
        rw [hblank]
        rcases b.isEmpty with hb | hb <;> rw [hb] <;> decide
      rw [← headerField_eq_some_iff, hnone] at hfield
      cases hfield

/-- Two requests that end in the same response report the same headers
exactly when their earlier responses agree on every name that the last one
does not carry. -/
theorem headers_eq_iff (earlier earlier' : List Block) (last : Block)
    (body body' : List Bytes) (code code' : Int) :
    (perform ⟨deliver (earlier ++ [last]), body, .ok code⟩).headers =
        (perform ⟨deliver (earlier' ++ [last]), body', .ok code'⟩).headers ↔
      ∀ key, ¬ last.Carries key →
        ∀ val, LastField (deliver earlier) key val ↔ LastField (deliver earlier') key val := by
  have hheaders : ∀ (blocks : List Block) (body : List Bytes) (code : Int),
      (perform ⟨deliver (blocks ++ [last]), body, .ok code⟩).headers =
        writeAll ∅ ((deliver blocks).filterMap headerField ++ last.calls.filterMap headerField) := by
    intro blocks body code
    show headerBuffer (deliver (blocks ++ [last])) = _
    rw [headerBuffer_eq, deliver, List.flatMap_append, List.filterMap_append]
    simp [deliver]
  rw [hheaders, hheaders, writeAll_append_eq_iff]
  refine forall_congr' fun key => ?_
  rw [Block.carries_iff]
  refine imp_congr_right fun _ => ?_
  rw [Option.ext_iff]
  simp only [lastField_iff]

/-! ## A redirect -/

/-- `"HTTP/1.1 302 Found"` with a `Location` field. -/
def redirect : Block where
  status := "HTTP/1.1 302 Found\r\n".toList.map byte
  fields := ["Location: /b\r\n".toList.map byte]
  blank := [cr, lf]
  isStatus := by decide +kernel
  isEmpty := by decide

/-- `"HTTP/1.1 200 OK"` and no field. -/
def found : Block where
  status := "HTTP/1.1 200 OK\r\n".toList.map byte
  fields := []
  blank := [cr, lf]
  isStatus := by decide +kernel
  isEmpty := by decide

/-- The `Location` of a followed redirect is reported with the page it leads to. -/
theorem location_outlives_redirect :
    (perform ⟨deliver [redirect, found], [], .ok 200⟩).headers ≠
      (perform ⟨deliver [found], [], .ok 200⟩).headers := by
  intro h
  have hlookup := congrArg (fun t : Headers => t["location".toList.map byte]?) h
  revert hlookup
  decide +kernel

end UempPlugin.Ref.HttpsClient
