import Snapshot.Proofs.Header.Section

/-!
# Nothing is read that was not claimed

Every part of the header section is claimed before it is read.
`Decoder.ClaimsAhead` says this of a decoder, step by step, and
`decodeSection_claimsAhead` and `decodeHeader_claimsAhead` say it of the two
decoders of this format.

Three facts follow from it, each by going through the steps once.

* **The file is to blame.**  Faults of resolution are those of an expression, and no
  step raises one (`ClaimsAhead.isResolution_eq_false`).
* **Reads do not fail.**  Where a file is as long as it is said to be, every
  claim that is granted is for bytes that are there
  (`ClaimsAhead.isShortRead_eq_false`).
* **What stands behind does not matter.**  If there are more bytes behind those
  at hand, and the file is said to be longer, then the decoder goes the same way,
  unless it came to an end for want of bytes (`ClaimsAhead.extended`).  A claim
  that was refused is refused again as long as it reaches past the new length.
-/

namespace Snapshot

/-! ## Kinds of faults -/

namespace Fault

/-- Bytes that the file is said to have are not there. -/
def isShortRead : Fault → Bool
  | storage _ | endOfWord => true
  | _ => false

/-- Something is wrong with the bytes that were read. -/
def isOfContents : Fault → Bool
  | badMagic _ | unknownVersion _ | unknownTag _ | badWidth .. | badName _ | repeatedName _
  | badCounts .. => true
  | _ => false

variable {fault : Fault}

theorem isShortRead_eq_false (h : fault.isOfContents) : fault.isShortRead = false := by
  cases fault <;> first | rfl | cases h

theorem isResolution_eq_false (h : fault.isOfContents) : fault.isResolution = false := by
  cases fault <;> first | rfl | cases h

end Fault

/-! ## Cursors -/

namespace Cursor

variable (cursor : Cursor) (size : Nat)

/-- The cursor with `size` more bytes claimed. -/
def claiming : Cursor := { cursor with claimed := cursor.claimed + size }

/-- The cursor with `size` more bytes read. -/
def reading : Cursor := { cursor with rest := cursor.rest.drop size }

/-- The cursor with more bytes behind those that are there, in a file that is said to be longer. -/
def extend (tail : Bytes) (more : Nat) : Cursor where
  rest := cursor.rest ++ tail
  claimed := cursor.claimed
  limit := cursor.limit + more

variable {cursor size}

theorem length_rest_reading (h : size ≤ cursor.rest.length) :
    (cursor.reading size).rest.length + size = cursor.rest.length := by
  show (cursor.rest.drop size).length + size = _
  rw [List.length_drop, Nat.sub_add_cancel h]

theorem le_length_rest_extend (h : size ≤ cursor.rest.length) (tail : Bytes) (more : Nat) :
    size ≤ (cursor.extend tail more).rest.length := by
  show size ≤ (cursor.rest ++ tail).length
  rw [List.length_append]
  exact Nat.le_add_right_of_le h

theorem take_rest_extend (h : size ≤ cursor.rest.length) (tail : Bytes) (more : Nat) :
    (cursor.extend tail more).rest.take size = cursor.rest.take size :=
  List.take_append_of_le_length h

theorem extend_reading (h : size ≤ cursor.rest.length) (tail : Bytes) (more : Nat) :
    (cursor.extend tail more).reading size = (cursor.reading size).extend tail more := by
  show Cursor.mk ((cursor.rest ++ tail).drop size) _ _ = ⟨cursor.rest.drop size ++ tail, _, _⟩
  rw [List.drop_append_of_le_length h]
  rfl

/-- All bytes up to the limit are there, and of those that were claimed at least `granted` have not
been read. -/
structure Backed (cursor : Cursor) (granted : Nat) : Prop where
  fits : cursor.claimed ≤ cursor.limit
  length_le : cursor.limit + granted ≤ cursor.claimed + cursor.rest.length

namespace Backed

variable {granted : Nat}

/-- At the start, bytes that are all there. -/
theorem start {contents : Bytes} {length : Nat} (h : length ≤ contents.length) :
    Backed ⟨contents, 0, length⟩ 0 :=
  ⟨Nat.zero_le _, by simpa using h⟩

theorem claiming (h : cursor.Backed granted) (hreach : cursor.claimed + size ≤ cursor.limit) :
    (cursor.claiming size).Backed (granted + size) := by
  have hlength := h.length_le
  refine ⟨hreach, ?_⟩
  show cursor.limit + (granted + size) ≤ cursor.claimed + size + cursor.rest.length
  omega

theorem le_length_rest (h : cursor.Backed granted) (hsize : size ≤ granted) :
    size ≤ cursor.rest.length := by
  have hfits := h.fits
  have hlength := h.length_le
  omega

theorem reading (h : cursor.Backed granted) (hsize : size ≤ granted) :
    (cursor.reading size).Backed (granted - size) := by
  have hlength := h.length_le
  have hread := length_rest_reading (h.le_length_rest hsize)
  refine ⟨h.fits, ?_⟩
  show cursor.limit + (granted - size) ≤ cursor.claimed + (cursor.reading size).rest.length
  omega

end Backed

end Cursor

namespace Decoder

variable {α β : Type}

/-! ## The first step -/

section

variable (size : Nat) (cursor : Cursor)

theorem run_claim_bind (next : Decoder α) :
    (claim size >>= fun _ => next).run cursor =
      if cursor.claimed + size ≤ cursor.limit then next.run (cursor.claiming size)
      else .error (.truncated (clamp (cursor.claimed + size)) cursor.limit) := by
  rw [StateT.run_bind]
  show (claim size cursor >>= fun pair => next.run pair.2) = _
  unfold claim
  dsimp only
  split_ifs <;> rfl

theorem run_bytes_bind (next : Bytes → Decoder α) :
    (bytes size >>= next).run cursor =
      if size ≤ cursor.rest.length then
        (next (cursor.rest.take size)).run (cursor.reading size)
      else .error (.storage .endOfFile) := by
  rw [StateT.run_bind]
  show (bytes size cursor >>= fun pair => (next pair.1).run pair.2) = _
  unfold bytes
  split_ifs <;> rfl

theorem run_word_bind (order : ByteOrder) (next : Nat → Decoder α) :
    (word order size >>= next).run cursor =
      if size ≤ cursor.rest.length then
        (next (order.decode (cursor.rest.take size))).run (cursor.reading size)
      else .error .endOfWord := by
  rw [StateT.run_bind]
  show (word order size cursor >>= fun pair => (next pair.1).run pair.2) = _
  unfold word
  split_ifs <;> rfl

end

/-! ## Decoders by their steps -/

/-- The decoder reads nothing that was not claimed before: what it reads it has claimed itself, or
it is among the `granted` bytes that were claimed for it. -/
inductive ClaimsAhead : Nat → Decoder α → Prop
  | pure (granted : Nat) (a : α) : ClaimsAhead granted (pure a)
  | throw (granted : Nat) {fault : Fault} (hfault : fault.isOfContents) :
      ClaimsAhead granted (throw fault)
  | claim {granted : Nat} (size : Nat) {next : Decoder α}
      (hnext : ClaimsAhead (granted + size) next) :
      ClaimsAhead granted (claim size >>= fun _ => next)
  /-- A decoder may look at how far the claims reach. -/
  | reach {granted : Nat} {next : Nat → Decoder α}
      (hnext : ∀ claimed, ClaimsAhead granted (next claimed)) :
      ClaimsAhead granted (get >>= fun cursor => next cursor.claimed)
  | bytes {granted size : Nat} (hsize : size ≤ granted) {next : Bytes → Decoder α}
      (hnext : ∀ raw, ClaimsAhead (granted - size) (next raw)) :
      ClaimsAhead granted (bytes size >>= next)
  | word {granted : Nat} (order : ByteOrder) {size : Nat} (hsize : size ≤ granted)
      {next : Nat → Decoder α} (hnext : ∀ found, ClaimsAhead (granted - size) (next found)) :
      ClaimsAhead granted (word order size >>= next)

namespace ClaimsAhead

variable {granted other : Nat} {decoder : Decoder α}

/-- More may be granted than is read. -/
theorem mono (h : decoder.ClaimsAhead granted) (hle : granted ≤ other) :
    decoder.ClaimsAhead other := by
  induction h generalizing other with
  | pure granted a => exact .pure other a
  | throw granted hfault => exact .throw other hfault
  | claim size _ ih => exact .claim size (ih (Nat.add_le_add_right hle size))
  | reach _ ih => exact .reach fun claimed => ih claimed hle
  | bytes hsize _ ih =>
      exact .bytes (Nat.le_trans hsize hle) fun raw => ih raw (Nat.sub_le_sub_right hle _)
  | word order hsize _ ih =>
      exact .word order (Nat.le_trans hsize hle) fun found => ih found (Nat.sub_le_sub_right hle _)

/-- Two parts one after the other. -/
theorem bind (h : decoder.ClaimsAhead granted) {next : α → Decoder β}
    (hnext : ∀ a, (next a).ClaimsAhead other) :
    (decoder >>= next).ClaimsAhead (granted + other) := by
  induction h with
  | pure granted a =>
      rw [pure_bind]
      exact (hnext a).mono (Nat.le_add_left other granted)
  | throw granted hfault => exact .throw (granted + other) hfault
  | @claim granted size first _ ih =>
      rw [bind_assoc]
      refine .claim size (ih.mono ?_)
      omega
  | reach _ ih =>
      rw [bind_assoc]
      exact .reach ih
  | @bytes granted size hsize first _ ih =>
      rw [bind_assoc]
      refine .bytes (Nat.le_add_right_of_le hsize) fun raw => (ih raw).mono ?_
      omega
  | @word granted order size hsize first _ ih =>
      rw [bind_assoc]
      refine .word order (Nat.le_add_right_of_le hsize) fun found => (ih found).mono ?_
      omega

/-- A part that all was claimed for, and another one that claims for itself. -/
theorem andThen (h : decoder.ClaimsAhead granted) {next : α → Decoder β}
    (hnext : ∀ a, (next a).ClaimsAhead 0) : (decoder >>= next).ClaimsAhead granted :=
  h.bind hnext

/-- A check of what was read. -/
theorem lift {value : Except Fault α} (hvalue : ∀ fault, value = .error fault → fault.isOfContents) :
    (liftM value : Decoder α).ClaimsAhead granted := by
  cases value with
  | error fault => exact .throw granted (hvalue fault rfl)
  | ok a => exact .pure granted a

/-- A part behind a check. -/
theorem afterCheck {value : Except Fault β} (hvalue : ∀ fault, value = .error fault → fault.isOfContents)
    {next : β → Decoder α} (hnext : ∀ b, (next b).ClaimsAhead granted) :
    (liftM value >>= next).ClaimsAhead granted := by
  have hbind := (lift hvalue : ClaimsAhead 0 _).bind hnext
  rwa [Nat.zero_add] at hbind

theorem bytesAlone (size : Nat) : (Decoder.bytes size).ClaimsAhead size := by
  rw [← bind_pure (Decoder.bytes size)]
  exact .bytes (Nat.le_refl size) fun raw => .pure _ raw

theorem wordAlone (order : ByteOrder) (size : Nat) : (Decoder.word order size).ClaimsAhead size := by
  rw [← bind_pure (Decoder.word order size)]
  exact .word order (Nat.le_refl size) fun found => .pure _ found

/-- The same part several times. -/
theorem times (h : decoder.ClaimsAhead granted) (count : Nat) :
    (decoder.times count).ClaimsAhead (granted * count) := by
  induction count with
  | zero => exact .pure _ []
  | succ count ih =>
      rw [Nat.mul_succ, Nat.add_comm]
      exact h.bind fun first => ih.bind fun others => .pure 0 (first :: others)

/-! ## The file is to blame -/

/-- **No expression is to blame** where a decoder fails, however many bytes there are. -/
theorem isResolution_eq_false (h : decoder.ClaimsAhead granted) {before : Cursor} {fault : Fault}
    (hrun : decoder.run before = .error fault) : fault.isResolution = false := by
  induction h generalizing before with
  | pure granted a => cases hrun
  | throw granted hfault =>
      cases hrun
      exact Fault.isResolution_eq_false hfault
  | claim size _ ih =>
      rw [run_claim_bind] at hrun
      split_ifs at hrun
      · exact ih hrun
      · cases hrun
        rfl
  | reach _ ih => exact ih before.claimed hrun
  | bytes hsize _ ih =>
      rw [run_bytes_bind] at hrun
      split_ifs at hrun
      · exact ih _ hrun
      · cases hrun
        rfl
  | word order hsize _ ih =>
      rw [run_word_bind] at hrun
      split_ifs at hrun
      · exact ih _ hrun
      · cases hrun
        rfl

/-! ## Reads do not fail -/

/-- **Reads do not fail** where the file is as long as it is said to be. -/
theorem isShortRead_eq_false (h : decoder.ClaimsAhead granted) {before : Cursor}
    (hbacked : before.Backed granted) {fault : Fault}
    (hrun : decoder.run before = .error fault) : fault.isShortRead = false := by
  induction h generalizing before with
  | pure granted a => cases hrun
  | throw granted hfault =>
      cases hrun
      exact Fault.isShortRead_eq_false hfault
  | claim size _ ih =>
      rw [run_claim_bind] at hrun
      split_ifs at hrun with hreach
      · exact ih (hbacked.claiming hreach) hrun
      · cases hrun
        rfl
  | reach _ ih => exact ih before.claimed hbacked hrun
  | bytes hsize _ ih =>
      rw [run_bytes_bind, if_pos (hbacked.le_length_rest hsize)] at hrun
      exact ih _ (hbacked.reading hsize) hrun
  | word order hsize _ ih =>
      rw [run_word_bind, if_pos (hbacked.le_length_rest hsize)] at hrun
      exact ih _ (hbacked.reading hsize) hrun

/-! ## What stands behind does not matter -/

/-- Claims are never taken back. -/
theorem claimed_le (h : decoder.ClaimsAhead granted) {before after : Cursor} {a : α}
    (hrun : decoder.run before = .ok (a, after)) : before.claimed ≤ after.claimed := by
  induction h generalizing before with
  | pure granted a =>
      cases hrun
      exact Nat.le_refl _
  | throw granted hfault => cases hrun
  | claim size _ ih =>
      rw [run_claim_bind] at hrun
      split_ifs at hrun
      exact Nat.le_trans (Nat.le_add_right _ size) (ih hrun)
  | reach _ ih => exact ih before.claimed hrun
  | @bytes granted size hsize next _ ih =>
      rw [run_bytes_bind] at hrun
      split_ifs at hrun
      show (before.reading size).claimed ≤ after.claimed
      exact ih _ hrun
  | @word granted order size hsize next _ ih =>
      rw [run_word_bind] at hrun
      split_ifs at hrun
      show (before.reading size).claimed ≤ after.claimed
      exact ih _ hrun

end ClaimsAhead

/-- A claim that reaches past the limit was refused.  If the limit is put up by `more`, the claim is
refused again as long as it reaches past the new limit, and nothing is decoded without it. -/
structure Refused (limit more reach : Nat) (result : Except Fault (α × Cursor)) : Prop where
  limit_lt : limit < reach
  still : limit + more < reach → result = .error (.truncated (clamp reach) (limit + more))
  needed : ∀ a after, result = .ok (a, after) → reach ≤ after.claimed

/-- What a decoder makes of a cursor with a limit, and what it makes of the same cursor with more
bytes and a higher limit. -/
inductive Extended (limit : Nat) (tail : Bytes) (more : Nat) :
    Except Fault (α × Cursor) → Except Fault (α × Cursor) → Prop
  | decoded (a : α) (after : Cursor) :
      Extended limit tail more (.ok (a, after)) (.ok (a, after.extend tail more))
  | fault {fault : Fault} (hfault : fault.isOfContents) :
      Extended limit tail more (.error fault) (.error fault)
  | refused {reach : Nat} {result : Except Fault (α × Cursor)}
      (hrefused : Refused limit more reach result) :
      Extended limit tail more (.error (.truncated (clamp reach) limit)) result
  /-- The bytes at hand were not enough.  Nothing is said of what would have come after them. -/
  | ended {fault : Fault} (hfault : fault.isShortRead) (result : Except Fault (α × Cursor)) :
      Extended limit tail more (.error fault) result

/-- **What stands behind does not matter**, as long as the bytes at hand are enough. -/
theorem ClaimsAhead.extended {granted : Nat} {decoder : Decoder α}
    (h : decoder.ClaimsAhead granted) (before : Cursor) (tail : Bytes) (more : Nat) :
    Extended before.limit tail more (decoder.run before)
      (decoder.run (before.extend tail more)) := by
  induction h generalizing before with
  | pure granted a => exact .decoded a before
  | throw granted hfault => exact .fault hfault
  | @claim granted size next hnext ih =>
      rw [run_claim_bind, run_claim_bind]
      by_cases hreach : before.claimed + size ≤ before.limit
      · have hmore : (before.extend tail more).claimed + size ≤ (before.extend tail more).limit :=
          Nat.le_add_right_of_le hreach
        rw [if_pos hreach, if_pos hmore]
        exact ih (before.claiming size)
      · rw [if_neg hreach]
        refine .refused ⟨Nat.not_le.mp hreach, fun hstill => ?_, fun a after hafter => ?_⟩
        · exact if_neg (Nat.not_le.mpr hstill)
        · split_ifs at hafter
          exact hnext.claimed_le hafter
  | reach _ ih => exact ih before.claimed before
  | @bytes granted size hsize next _ ih =>
      rw [run_bytes_bind, run_bytes_bind]
      by_cases hrest : size ≤ before.rest.length
      · rw [if_pos hrest, if_pos (Cursor.le_length_rest_extend hrest tail more),
          Cursor.take_rest_extend hrest, Cursor.extend_reading hrest]
        exact ih _ (before.reading size)
      · rw [if_neg hrest]
        exact .ended rfl _
  | @word granted order size hsize next _ ih =>
      rw [run_word_bind, run_word_bind]
      by_cases hrest : size ≤ before.rest.length
      · rw [if_pos hrest, if_pos (Cursor.le_length_rest_extend hrest tail more),
          Cursor.take_rest_extend hrest, Cursor.extend_reading hrest]
        exact ih _ (before.reading size)
      · rw [if_neg hrest]
        exact .ended rfl _

end Decoder

/-! ## The decoders of the format -/

open Decoder

theorem decodeIdentity_claimsAhead : decodeIdentity.ClaimsAhead 0 := by
  have hversion : ∀ order, (word order 4 >>= fun version =>
      pure (order, UInt32.ofNat version)).ClaimsAhead 4 :=
    fun order => .word order (Nat.le_refl 4) fun version => .pure _ _
  refine .claim 8 (.bytes (by decide) fun raw => ?_)
  dsimp only
  split_ifs
  · exact hversion .little
  · exact hversion .big
  · exact .throw _ rfl

theorem decodePreamble_claimsAhead (order : ByteOrder) (version : UInt32) :
    (decodePreamble order version).ClaimsAhead 0 := by
  unfold decodePreamble
  split_ifs
  · refine .claim _ ?_
    rw [Nat.zero_add]
    exact ((ClaimsAhead.wordAlone order 8).times _).andThen fun words => .pure 0 _
  · exact .throw 0 rfl

theorem checkCounts_claimsAhead (preamble : Preamble) : (checkCounts preamble).ClaimsAhead 0 := by
  unfold checkCounts
  split_ifs
  · exact .throw 0 rfl
  · exact .pure 0 ()

theorem decodeNative_claimsAhead (order : ByteOrder) : (decodeNative order).ClaimsAhead 0 := by
  refine .claim 4 (.word order (by decide) fun length => .claim length ?_)
  exact (ClaimsAhead.bytesAlone length).mono (Nat.le_add_left _ _)

theorem isOfContents_of_decodeName {earlier : List String} {raw : Bytes} {fault : Fault}
    (h : decodeName earlier raw = .error fault) : fault.isOfContents := by
  unfold decodeName at h
  split at h
  · cases h
    rfl
  · dsimp only at h
    split_ifs at h
    all_goals
      cases h
      rfl

theorem decodeNames_claimsAhead (earlier : List String) (lengths : List Nat) :
    (decodeNames earlier lengths).ClaimsAhead (totalSize lengths) := by
  induction lengths generalizing earlier with
  | nil => exact .pure _ []
  | cons length lengths ih =>
      have htotal : totalSize (length :: lengths) = length + totalSize lengths := rfl
      rw [htotal]
      refine (ClaimsAhead.bytesAlone length).bind fun raw => ?_
      refine .afterCheck (fun _ => isOfContents_of_decodeName) fun name => ?_
      exact (ih (name :: earlier)).andThen fun names => .pure 0 (name :: names)

theorem decodeType_claimsAhead : decodeType.ClaimsAhead 3 := by
  refine (ClaimsAhead.bytesAlone 3).andThen fun raw => .lift fun fault h => ?_
  unfold decodeTag at h
  split at h
  · cases h
  · cases h
    rfl

theorem isOfContents_of_checkWidths {names : List String} {widths : List UInt8} {fault : Fault}
    (h : checkWidths names widths = .error fault) : fault.isOfContents := by
  fun_induction checkWidths names widths with
  | case1 name names width widths hwidth =>
      cases h
      rfl
  | case2 name names width widths hwidth ih => exact ih h
  | case3 names widths hnone => cases h

theorem decodeWidths_claimsAhead (version : UInt32) (names : List String) :
    (decodeWidths version names).ClaimsAhead 0 := by
  unfold decodeWidths
  split_ifs
  · refine .claim _ ?_
    rw [Nat.zero_add]
    refine (ClaimsAhead.bytesAlone _).andThen fun widths => ?_
    exact .afterCheck (fun _ => isOfContents_of_checkWidths) fun _ => .pure 0 widths
  · exact .pure 0 _

/-- **The section** is claimed before it is read. -/
theorem decodeSection_claimsAhead : decodeSection.ClaimsAhead 0 := by
  refine decodeIdentity_claimsAhead.andThen fun identity => ?_
  refine (decodePreamble_claimsAhead identity.1 identity.2).andThen fun preamble => ?_
  refine (checkCounts_claimsAhead preamble).andThen fun _ => ?_
  refine (decodeNative_claimsAhead identity.1).andThen fun native => ?_
  refine .claim 4 (.word identity.1 (by decide) fun columns => .claim _ ?_)
  rw [Nat.zero_add]
  refine ((ClaimsAhead.wordAlone identity.1 4).times columns).andThen fun lengths => .claim _ ?_
  rw [Nat.zero_add]
  refine (decodeNames_claimsAhead [] lengths).andThen fun names => .claim _ ?_
  rw [Nat.zero_add]
  refine (decodeType_claimsAhead.times columns).andThen fun types => ?_
  exact (decodeWidths_claimsAhead identity.2 names).andThen fun widths => .pure 0 _

/-- **The header** claims the columns as well, and reads nothing of them. -/
theorem decodeHeader_claimsAhead : decodeHeader.ClaimsAhead 0 := by
  have hcolumns : ∀ (content : Section) (claimed : Nat),
      (claim (content.toHeader claimed).layout.dataSize >>= fun _ =>
        pure (content.toHeader claimed)).ClaimsAhead 0 :=
    fun content claimed => .claim _ (.pure _ _)
  unfold decodeHeader
  exact decodeSection_claimsAhead.andThen fun content => .reach (hcolumns content)

/-- The decoder goes the same way on a file and on a longer one that begins with it. -/
theorem decodeHeader_extended (bytes tail : Bytes) :
    Extended bytes.length tail tail.length (decodeHeader.run ⟨bytes, 0, bytes.length⟩)
      (decodeHeader.run ⟨bytes ++ tail, 0, (bytes ++ tail).length⟩) := by
  have hcursor : Cursor.extend ⟨bytes, 0, bytes.length⟩ tail tail.length =
      ⟨bytes ++ tail, 0, (bytes ++ tail).length⟩ := by
    rw [List.length_append]
    rfl
  rw [← hcursor]
  exact decodeHeader_claimsAhead.extended ⟨bytes, 0, bytes.length⟩ tail tail.length

/-- No read of a whole file fails. -/
theorem isShortRead_eq_false_of_decodeHeader {bytes : Bytes} {fault : Fault}
    (hrun : decodeHeader.run ⟨bytes, 0, bytes.length⟩ = .error fault) : fault.isShortRead = false :=
  decodeHeader_claimsAhead.isShortRead_eq_false (Cursor.Backed.start (Nat.le_refl _)) hrun

/-- **No expression is to blame** for bytes that have no header. -/
theorem Header.isResolution_eq_false_of_ofBytes {bytes : Bytes} {fault : Fault}
    (h : Header.ofBytes bytes = .error fault) : fault.isResolution = false := by
  change Except.map Prod.fst (decodeHeader.run ⟨bytes, 0, bytes.length⟩) = _ at h
  cases hrun : decodeHeader.run ⟨bytes, 0, bytes.length⟩ with
  | error found =>
      rw [hrun] at h
      cases h
      exact decodeHeader_claimsAhead.isResolution_eq_false hrun
  | ok pair =>
      rw [hrun] at h
      cases h

end Snapshot
