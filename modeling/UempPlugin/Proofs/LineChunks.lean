import UempPlugin.Proofs.CountChain

/-!
# Lines counted chunk by chunk

The loop carries the number of newlines and the last byte over from one read to
the next, so what it holds is what one pass over all the bytes read so far would
hold. The last line is looked at after the loop only, and it makes no difference
where a read ends, or whether the last one is short or empty.
-/

namespace UempPlugin.Ref.CountSink

open UempPlugin.Lib

/-- The reads can deliver this content. None but the last one leaves the stream
bad, and none but the last one may be empty. -/
inductive Delivery : Bytes → List Read → Prop
  | eof : Delivery [] [⟨[], false⟩]
  | last {c : Bytes} : c ≠ [] → Delivery c [⟨c, false⟩]
  | more {c rest : Bytes} {reads : List Read} : c ≠ [] → Delivery rest reads →
      Delivery (c ++ rest) (⟨c, true⟩ :: reads)

theorem Delivery.readLoop {content : Bytes} {reads : List Read} (h : Delivery content reads)
    (b : Bytes) : CountSink.readLoop (scanOf b) reads = scanOf (b ++ content) := by
  induction h generalizing b with
  | eof => rw [CountSink.readLoop, if_pos rfl, List.append_nil]
  | last hc => rw [CountSink.readLoop, if_neg hc, if_neg Bool.false_ne_true, scanOf_chunk b _ hc]
  | more hc _ ih =>
      rw [CountSink.readLoop, if_neg hc, if_pos rfl, scanOf_chunk b _ hc, ih, List.append_assoc]

theorem Delivery.countLinesRead {content : Bytes} {reads : List Read}
    (h : Delivery content reads) : CountSink.countLinesRead reads = lineCount content := by
  have hscan := h.readLoop []
  rw [List.nil_append] at hscan
  rw [CountSink.countLinesRead, ← lineCount_scanOf, ← hscan]
  rfl

/-- A buffer that is not empty delivers the file; the read that meets the end
is empty when the length is a multiple of the buffer. -/
theorem fileReads_delivery {n : Nat} (hn : 0 < n) :
    ∀ {k : Nat} {b : Bytes}, b.length ≤ k → Delivery b (fileReads n k b) := by
  intro k
  induction k with
  | zero =>
      intro b hk
      rw [List.length_eq_zero_iff.1 (Nat.le_zero.1 hk)]
      exact .eof
  | succ k ih =>
      intro b hk
      rw [fileReads]
      split
      · cases b with
        | nil => exact .eof
        | cons x b => exact .last (List.cons_ne_nil x b)
      · next hlen =>
          have hne : b.take n ≠ [] := by
            intro hnil
            rcases List.take_eq_nil_iff.1 hnil with hzero | rfl
            · omega
            · exact hlen hn
          have hrest : (b.drop n).length ≤ k := by
            rw [List.length_drop]
            omega
          have hmore := Delivery.more hne (ih hrest)
          rw [List.take_append_drop] at hmore
          exact hmore

/-- Whatever chunks the reads of a stream cut the content into, its lines are
counted exactly, and the 64 KiB buffer is one such way for a file of any
length. So is every list of chunks, however long they are, of which none is
empty. -/
theorem countLinesRead_exact (content : Bytes) :
    (∀ reads, Delivery content reads → countLinesRead reads =
      content.count newline + if content ≠ [] ∧ content.getLast? ≠ some newline then 1 else 0) ∧
      Delivery content (fileReads kBuf content.length content) ∧
      (∀ chunks : List Bytes, (∀ c ∈ chunks, c ≠ []) → chunks.flatten = content →
        countLinesInFile chunks = countLinesRead (fileReads kBuf content.length content)) ∧
      countLinesInFile (readChunks kBuf content.length content) =
        countLinesRead (fileReads kBuf content.length content) := by
  have hfile := fileReads_delivery (n := kBuf) (by decide) (Nat.le_refl content.length)
  refine ⟨fun reads h => h.countLinesRead, hfile, ?_, ?_⟩
  · rintro chunks hchunks rfl
    rw [countLinesInFile_flatten hchunks, hfile.countLinesRead]
  · rw [countLinesInFile_eq, hfile.countLinesRead]

/-- Two lines in three reads, the second line without its newline. -/
theorem countLinesRead_exact_unterminated :
    countLinesRead [⟨[97], true⟩, ⟨[10], true⟩, ⟨[98], false⟩] = 2 :=
  (countLinesRead_exact [97, 10, 98]).1 [⟨[97], true⟩, ⟨[10], true⟩, ⟨[98], false⟩]
    (.more (c := [97]) (by decide) (.more (c := [10]) (by decide) (.last (by decide))))

end UempPlugin.Ref.CountSink
