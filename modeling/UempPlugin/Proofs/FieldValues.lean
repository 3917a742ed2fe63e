import UempPlugin.Proofs.RequestHeaders
import UempPlugin.Proofs.ResponseHeaders

/-!
# The values of response fields

By the grammar of HTTP the blanks on both sides of a field value are not part of
it. `headerCallback` skips the ones in front and takes the line end off; blanks
between the value and the line end stay in the map, where libcurl's own table of
headers has none. With an empty value the blanks behind it are in front of
nothing, and are skipped.
-/

namespace UempPlugin.Ref.HttpsClient

open UempPlugin.Lib Spec.HeaderFields

/-- A field, with the way it is written on its line. -/
structure FieldLine where
  name : Bytes
  before : Bytes
  value : Bytes
  after : Bytes
  eol : Bytes
  isName : IsToken name
  isBefore : ∀ c ∈ before, isBlank c
  isAfter : ∀ c ∈ after, isBlank c
  isEnd : eol = [cr, lf] ∨ eol = [lf]
  oneLine : ∀ c ∈ value, ¬ isEol c
  head : ∀ c, value.head? = some c → ¬ isBlank c
  last : ∀ c, value.getLast? = some c → ¬ isBlank c

namespace FieldLine

def line (f : FieldLine) : Bytes :=
  f.name ++ colon :: (f.before ++ f.value ++ f.after ++ f.eol)

/-- The name as the map has it. -/
def key (f : FieldLine) : Bytes := f.name.map tolower

/-- The value as the map has it. -/
def stored (f : FieldLine) : Bytes := if f.value = [] then [] else f.value ++ f.after

end FieldLine

/-- No later field of the list has this name. -/
def IsLast (fields : List FieldLine) (f : FieldLine) : Prop :=
  ∃ earlier later, fields = earlier ++ f :: later ∧ ∀ f' ∈ later, f'.key ≠ f.key

/-- The calls for one response. -/
def responseCalls (status blank : Bytes) (fields : List FieldLine) : List Bytes :=
  status :: fields.map FieldLine.line ++ [blank]

/-- Every call takes all its bytes, and afterwards each name of the list has the
value of the last field with that name, and no other name has one. -/
structure Parsed (calls : List Bytes) (fields : List FieldLine) : Prop where
  taken : ∀ data ∈ calls, ∀ userp, (headerCallback data userp).1 = data.length
  values : ∀ key val, (headerBuffer calls)[key]? = some val ↔
    ∃ f, IsLast fields f ∧ f.key = key ∧ f.value = val

/-! ## One line -/

theorem tchar_not_mem {name : Bytes} (h : IsToken name) : colon ∉ name ∧ byte '/' ∉ name := by
  constructor
  · intro hmem
    have := h.2 _ hmem
    revert this
    decide +kernel
  · intro hmem
    have := h.2 _ hmem
    revert this
    decide +kernel

/-- A field line is not taken for a status line: a token has no slash. -/
theorem not_httpPrefix {name rest : Bytes} (h : IsToken name) :
    ¬ httpPrefix <+: name ++ colon :: rest := by
  obtain ⟨hcolon, hslash⟩ := tchar_not_mem h
  intro hprefix
  rcases Nat.lt_or_ge 4 name.length with hlong | hshort
  · have hget : (name ++ colon :: rest)[4]? = httpPrefix[4]? := by
      obtain ⟨t, ht⟩ := hprefix
      rw [← ht, List.getElem?_append_left (by decide)]
    rw [List.getElem?_append_left hlong] at hget
    exact hslash (List.mem_of_getElem? hget)
  · have hget : (name ++ colon :: rest)[name.length]? = httpPrefix[name.length]? := by
      obtain ⟨t, ht⟩ := hprefix
      rw [← ht, List.getElem?_append_left (Nat.lt_of_le_of_lt hshort (by decide))]
    rw [List.getElem?_append_right (Nat.le_refl _), Nat.sub_self, List.getElem?_cons_zero] at hget
    have hmem := List.mem_of_getElem? hget.symm
    revert hmem
    decide +kernel

theorem FieldLine.headerField_line (f : FieldLine) :
    headerField f.line = some (f.key, f.stored) := by
  have heol : ∀ c ∈ f.eol, isEol c := by
    rcases f.isEnd with h | h <;> rw [h] <;> decide +kernel
  rw [headerField_eq_some_iff]
  refine ⟨not_httpPrefix f.isName, ?_⟩
  by_cases hvalue : f.value = []
  · refine ⟨f.name, f.before ++ f.after, f.eol, ?_, (tchar_not_mem f.isName).1, rfl, ?_, heol, ?_, ?_⟩
    · rw [line, stored, if_pos hvalue, hvalue, List.append_nil, List.append_nil]
    · intro c hc
      exact (List.mem_append.1 hc).elim (f.isBefore c) (f.isAfter c)
    · rw [stored, if_pos hvalue]
      nofun
    · rw [stored, if_pos hvalue]
      nofun
  · refine ⟨f.name, f.before, f.eol, ?_, (tchar_not_mem f.isName).1, rfl, f.isBefore, heol, ?_, ?_⟩
    · rw [line, stored, if_neg hvalue, List.append_assoc f.before]
    · intro c hc
      rw [stored, if_neg hvalue, List.head?_append_of_ne_nil _ hvalue] at hc
      exact f.head c hc
    · intro c hc
      rw [stored, if_neg hvalue] at hc
      rcases List.mem_append.1 (List.mem_of_getLast? hc) with hc | hc
      · exact f.oneLine c hc
      · exact blank_not_eol (f.isAfter c hc)

/-! ## A response -/

theorem headerCallback_taken (data : Bytes) (userp : Option Headers) :
    (headerCallback data userp).1 = data.length := by
  cases userp with
  | none => rfl
  | some headers =>
      rw [headerCallback.eq_def]
      cases headerField data <;> rfl

theorem lastWrite_map {fields : List FieldLine} {key val : Bytes} :
    lastWrite key (fields.map fun f => (f.key, f.stored)) = some val ↔
      ∃ f, IsLast fields f ∧ f.key = key ∧ f.stored = val := by
  rw [lastWrite_eq_some]
  constructor
  · intro ⟨pre, post, hmap, hpost⟩
    obtain ⟨earlier, rest, hfields, -, hrest⟩ := List.map_eq_append_iff.1 hmap
    obtain ⟨f, later, hsplit, hf, hlater⟩ := List.map_eq_cons_iff.1 hrest
    cases hf
    refine ⟨f, ⟨earlier, later, by rw [hfields, hsplit], fun f' hf' heq => ?_⟩, rfl, rfl⟩
    refine hpost f'.stored ?_
    rw [← hlater, ← heq]
    exact List.mem_map_of_mem hf'
  · rintro ⟨f, ⟨earlier, later, rfl, hlater⟩, rfl, rfl⟩
    refine ⟨earlier.map fun f => (f.key, f.stored), later.map fun f => (f.key, f.stored),
      by rw [List.map_append, List.map_cons], fun val' hmem => ?_⟩
    obtain ⟨f', hf', heq⟩ := List.mem_map.1 hmem
    exact hlater f' hf' (congrArg Prod.fst heq)

section Response

variable {status blank : Bytes} (hstatus : httpPrefix <+: status)
  (hblank : blank = [cr, lf] ∨ blank = [lf]) (fields : List FieldLine)

include hstatus hblank

theorem headerBuffer_response (key val : Bytes) :
    (headerBuffer (responseCalls status blank fields))[key]? = some val ↔
      ∃ f, IsLast fields f ∧ f.key = key ∧ f.stored = val := by
  have hnone : headerField status = none := if_pos hstatus
  have hempty : headerField blank = none := by
    rcases hblank with rfl | rfl <;> decide
  have hlines : (fields.map FieldLine.line).filterMap headerField =
      fields.map fun f => (f.key, f.stored) := by
    rw [List.filterMap_map, ← List.filterMap_eq_map]
    exact List.filterMap_congr fun f _ => f.headerField_line
  rw [headerBuffer_lastWrite, responseCalls, List.cons_append, List.filterMap_cons_none hnone,
    List.filterMap_append, hlines, List.filterMap_cons_none hempty, List.filterMap_nil,
    List.append_nil, lastWrite_map]

/-- The headers of a response are its fields exactly when no field that is the
last of its name has a value with blanks behind it. -/
theorem parsed_iff :
    Parsed (responseCalls status blank fields) fields ↔
      ∀ f, IsLast fields f → f.after = [] ∨ f.value = [] := by
  have hbuffer := headerBuffer_response hstatus hblank fields
  constructor
  · intro h f hf
    have hvalue := (h.values f.key f.value).2 ⟨f, hf, rfl, rfl⟩
    have hstored := (hbuffer f.key f.stored).2 ⟨f, hf, rfl, rfl⟩
    rw [hvalue, Option.some.injEq, FieldLine.stored] at hstored
    split at hstored
    · next hempty => exact .inr hempty
    · exact .inl (List.self_eq_append_right.1 hstored)
  · intro h
    have hvalue : ∀ f, IsLast fields f → f.stored = f.value := by
      intro f hf
      rw [FieldLine.stored]
      split
      · next hempty => exact hempty.symm
      · next hne => rw [(h f hf).resolve_right hne, List.append_nil]
    refine ⟨fun data _ userp => headerCallback_taken data userp, fun key val => ?_⟩
    rw [hbuffer]
    refine exists_congr fun f => and_congr_right fun hf => ?_
    rw [hvalue f hf]

end Response

/-- `"HTTP/1.1 200 OK"`. -/
def okStatus : Bytes := "HTTP/1.1 200 OK\r\n".toList.map byte

/-- The field `ETag`, with blanks on either side of its value. -/
def etag (before value after : Bytes) (hbefore : ∀ c ∈ before, isBlank c)
    (hafter : ∀ c ∈ after, isBlank c) (hvalue : ∀ c ∈ value, ¬ isEol c ∧ ¬ isBlank c) :
    FieldLine where
  name := ['E', 'T', 'a', 'g'].map byte
  before := before
  value := value
  after := after
  eol := [lf]
  isName := by decide +kernel
  isBefore := hbefore
  isAfter := hafter
  isEnd := .inr rfl
  oneLine c hc := (hvalue c hc).1
  head c hc := (hvalue c (List.mem_of_head? hc)).2
  last c hc := (hvalue c (List.mem_of_getLast? hc)).2

/-- `ETag:`, a tab, `x`, and a later `ETag:` without a value. -/
theorem parsed_etag :
    let first := etag [byte '\t'] [byte 'x'] [] (by decide +kernel) (by decide +kernel)
      (by decide +kernel)
    let second := etag [] [] [byte ' '] (by decide +kernel) (by decide +kernel) (by decide +kernel)
    Parsed (responseCalls okStatus [lf] [first, second]) [first, second] := by
  refine (parsed_iff (by decide +kernel) (.inr rfl) _).2 fun f ⟨earlier, later, hsplit, _⟩ => ?_
  have hmem : f ∈ earlier ++ f :: later := by simp
  rw [← hsplit, List.mem_cons, List.mem_singleton] at hmem
  rcases hmem with rfl | rfl
  · exact .inl rfl
  · exact .inr rfl

/-- `ETag: x`, a blank and the line end. -/
theorem etag_keeps_blank :
    let field := etag [byte ' '] [byte 'x'] [byte ' '] (by decide +kernel) (by decide +kernel)
      (by decide +kernel)
    (headerBuffer (responseCalls okStatus [lf] [field]))[field.key]? = some [byte 'x', byte ' '] ∧
      ¬ Parsed (responseCalls okStatus [lf] [field]) [field] := by
  intro field
  have hkept : (headerBuffer (responseCalls okStatus [lf] [field]))[field.key]? =
      some [byte 'x', byte ' '] := by
    decide +kernel
  refine ⟨hkept, fun h => ?_⟩
  have hvalue := (h.values field.key field.value).2 ⟨field, ⟨[], [], rfl, nofun⟩, rfl, rfl⟩
  rw [hkept] at hvalue
  revert hvalue
  decide +kernel

end UempPlugin.Ref.HttpsClient
