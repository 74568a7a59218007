import StringTransform.Proofs.Grammar.Recording

/-!
# Reading what follows an offset

A pattern text can be read from any place between two of its characters on. What is read
there is the rest of the text, no matter what stands in front of it: the pattern is that of
the rest, and a fault lies as many bytes further on as precede the rest. Reading that succeeds
has come to the end of the text.

## Main results

* `afterBytes_append`, `afterBytes_of_pos` — what follows the bytes of a text
* `Pattern.parseChars_eq_map` — reading that succeeds stops at the end
* `Pattern.parseChars_eq_shiftResult` — a text means the same wherever it starts
* `Pattern.parseFrom_eq_parse_rest` — reading from an offset on is reading the rest
-/

namespace StringTransform

/-- Behind the bytes of its first part comes the second part of a text. -/
theorem afterBytes_append (cs ds : List Char) :
    afterBytes (cs ++ ds) (String.utf8Len cs) = ds := by
  induction cs with
  | nil => cases ds <;> rfl
  | cons c cs ih =>
    have positive : String.utf8Len cs + c.utf8Size ≠ 0 := by have := c.utf8Size_pos; omega
    rw [List.cons_append, String.utf8Len_cons, afterBytes, if_neg positive, Nat.add_sub_cancel, ih]

/-- Behind the bytes before a place stands the rest of the text. -/
theorem afterBytes_of_pos {s : String} (k : s.Pos) :
    afterBytes s.toList k.offset.byteIdx = (s.sliceFrom k).copy.toList := by
  obtain ⟨whole, offset⟩ := k.splits
  have before : k.offset.byteIdx = String.utf8Len (s.sliceTo k).copy.toList := by
    rw [offset, String.utf8Len_toList]
    rfl
  calc afterBytes s.toList k.offset.byteIdx
      = afterBytes ((s.sliceTo k).copy.toList ++ (s.sliceFrom k).copy.toList)
          (String.utf8Len (s.sliceTo k).copy.toList) := by
        rw [before, ← String.toList_append, ← whole]
    _ = (s.sliceFrom k).copy.toList := afterBytes_append _ _

/-- The bytes before a place and those of the rest are all bytes of the text. -/
theorem byteIdx_add_rest {s : String} (k : s.Pos) :
    k.offset.byteIdx + (s.sliceFrom k).copy.utf8ByteSize = s.utf8ByteSize := by
  obtain ⟨whole, offset⟩ := k.splits
  calc k.offset.byteIdx + (s.sliceFrom k).copy.utf8ByteSize
      = ((s.sliceTo k).copy ++ (s.sliceFrom k).copy).utf8ByteSize := by
        rw [offset, String.utf8ByteSize_append]
        rfl
    _ = s.utf8ByteSize := congrArg String.utf8ByteSize whole.symm

namespace Pattern

/-- Reading that succeeds has read every byte. -/
theorem parseChars_eq_map (offset : Nat) (cs : List Char) :
    parseChars offset cs = (((Reading.start offset).read cs).bind Reading.finish).map
      (·, offset + String.utf8Len cs) := by
  rw [parseChars]
  cases read : (Reading.start offset).read cs with
  | error fault => rfl
  | ok r =>
    have stop : r.offset = offset + String.utf8Len cs := Reading.offset_of_read read
    show r.finish.map (·, r.offset) = r.finish.map (·, offset + String.utf8Len cs)
    rw [stop]

/-- Wherever a text starts, its reading is the reading from zero with all offsets moved. -/
theorem parseChars_eq_shiftResult (offset : Nat) (rest : String) :
    parseChars offset rest.toList =
      shiftResult offset (fun p => (p, offset + rest.utf8ByteSize)) (parse rest) := by
  calc parseChars offset rest.toList
      = shiftResult offset (fun result => (result.1, offset + result.2))
          (parseChars 0 rest.toList) := parseChars_shift offset 0 rest.toList
    _ = shiftResult offset (fun p => (p, offset + rest.utf8ByteSize)) (parse rest) := by
        rw [parseChars_eq_map, shiftResult_map, ← parse_eq_bind, Nat.zero_add,
          String.utf8Len_toList]

/-- Reading from an offset on is reading the rest of the text. On success everything has been
read; on failure the fault is that of the rest, at its offset behind what precedes the rest. -/
theorem parseFrom_eq_parse_rest (pattern : String) (k : pattern.Pos) :
    parseFrom pattern k.offset.byteIdx =
      shiftResult k.offset.byteIdx (fun p => (p, pattern.utf8ByteSize))
        (parse (pattern.sliceFrom k).copy) := by
  rw [parseFrom, afterBytes_of_pos, parseChars_eq_shiftResult, byteIdx_add_rest]

end Pattern

end StringTransform
