import Snapshot.Proofs.Header.Room

/-!
# Sums and products in words

The decoders of the header add and multiply natural numbers.  A machine does so
in words of eight bytes.  `decodeHeaderInWords` is the decoder as such a machine
runs it: it comes to a stop, without a result, where a sum or a product does not
fit a word.

It never does (`decodeHeaderInWords_agrees`).  The number of columns and the
lengths of their names are words of four bytes, so their products and sums are
small enough, and claims are held against a limit that is a word itself.  Only
the lengths of the columns can have a sum that is too great.  Then as much is
claimed as can be claimed, and that is more than any file has behind its header.
-/

namespace Snapshot

open Decoder

/-! ## Words -/

/-- A size, if a word can hold it. -/
def word? (size : Nat) : Option Nat := if size ≤ sizeLimit then some size else none

theorem word?_of_le {size : Nat} (h : size ≤ sizeLimit) : word? size = some size := if_pos h

theorem word?_of_lt {size : Nat} (h : sizeLimit < size) : word? size = none :=
  if_neg (Nat.not_le.mpr h)

/-- The sum of a list of sizes, if every sum on the way to it fits a word. -/
def wordSum? (sizes : List Nat) : Option Nat :=
  sizes.foldlM (fun sum size => word? (sum + size)) 0

theorem foldlM_word? {start : Nat} (hstart : start ≤ sizeLimit) (sizes : List Nat) :
    sizes.foldlM (fun sum size => word? (sum + size)) start = word? (start + totalSize sizes) := by
  induction sizes generalizing start with
  | nil => exact (word?_of_le hstart).symm
  | cons size sizes ih =>
      have htotal : totalSize (size :: sizes) = size + totalSize sizes := rfl
      rw [htotal, ← Nat.add_assoc, List.foldlM_cons]
      rcases Nat.lt_or_ge sizeLimit (start + size) with hover | hfits
      · -- Once a sum is too great, so is every one after it.
        rw [word?_of_lt hover, word?_of_lt (Nat.lt_add_right _ hover)]
        rfl
      · rw [word?_of_le hfits]
        exact ih hfits

/-- No sum on the way is greater than the last one. -/
theorem wordSum?_eq (sizes : List Nat) : wordSum? sizes = word? (totalSize sizes) := by
  rw [wordSum?, foldlM_word? (Nat.zero_le _), Nat.zero_add]

theorem word?_getD (size : Nat) : (word? size).getD sizeLimit = clamp size := by
  unfold word? clamp
  split_ifs with hfits
  · exact (Nat.min_eq_left hfits).symm
  · exact (Nat.min_eq_right (Nat.le_of_not_le hfits)).symm

/-! ## The decoders on a machine -/

/-- A decoder on a machine that stops, with `none`, where a sum or a product does not fit a word. -/
abbrev WordDecoder := StateT Cursor (ExceptT Fault Option)

/-- A part of a decoder.  The place that its claims reach is a sum, and has to fit a word. -/
def WordDecoder.ofDecoder {α : Type} (decoder : Decoder α) : WordDecoder α := fun cursor =>
  match decoder.run cursor with
  | .error fault => some (.error fault)
  | .ok (a, after) => (word? after.claimed).map fun _ => .ok (a, after)

instance : MonadLift Decoder WordDecoder := ⟨WordDecoder.ofDecoder⟩

/-- The decoder of the section, with its sums and products in words. -/
def decodeSectionInWords : WordDecoder Section := do
  let (order, version) ← decodeIdentity
  let preamble ← decodePreamble order version
  checkCounts preamble
  let native ← decodeNative order
  claim 4
  let columns ← word order 4
  claim (← word? (4 * columns))
  let lengths ← times (word order 4) columns
  claim (← wordSum? lengths)
  let names ← decodeNames [] lengths
  claim (← word? (3 * columns))
  let types ← times decodeType columns
  let widths ← decodeWidths version names
  pure ⟨version, order, preamble, native, names, types, widths⟩

/-- The decoder of the header, with its sums and products in words.  Columns whose lengths have no
sum that fits claim as much as can be claimed. -/
def decodeHeaderInWords : WordDecoder Header := do
  let content ← decodeSectionInWords
  let header := content.toHeader (← get).claimed
  let lengths := (List.range header.layout.columns).map header.layout.columnLength
  claim ((wordSum? lengths).getD sizeLimit)
  pure header

/-! ## The machine does not stop -/

namespace WordDecoder

variable {α β : Type}

/-- The machine does not stop, and does what the decoder does. -/
def Agrees (machine : WordDecoder α) (decoder : Decoder α) : Prop :=
  ∀ cursor : Cursor, cursor.claimed ≤ cursor.limit → cursor.limit ≤ sizeLimit →
    machine.run cursor = some (decoder.run cursor)

namespace Agrees

variable {decoder : Decoder α} {valid : α → Prop} {form : α → Bytes} {need : α → Nat}

protected theorem pure (a : α) : Agrees (pure a) (pure a) := by
  intro cursor hfits hlimit
  rfl

/-- Two parts one after the other.  The first keeps its claims within the limit, because it is
described by what it decodes. -/
theorem bind {first : WordDecoder α} (hfirst : first.Agrees decoder)
    (hdecodes : decoder.Decodes valid form need) {machine : α → WordDecoder β}
    {next : α → Decoder β} (hnext : ∀ a, valid a → (machine a).Agrees (next a)) :
    Agrees (first >>= machine) (decoder >>= next) := by
  intro cursor hfits hlimit
  rw [StateT.run_bind, StateT.run_bind, hfirst cursor hfits hlimit]
  cases hrun : decoder.run cursor with
  | error fault => rfl
  | ok pair =>
      obtain ⟨a, after⟩ := pair
      obtain ⟨ha, hpasses⟩ := (hdecodes cursor hfits a after).mp hrun
      exact hnext a ha after hpasses.fits (hpasses.limit_eq ▸ hlimit)

/-- The place that a part of the decoder reaches is within the limit, and so fits a word. -/
theorem lift (h : decoder.Decodes valid form need) : Agrees (liftM decoder) decoder := by
  intro cursor hfits hlimit
  show ofDecoder decoder cursor = _
  unfold ofDecoder
  cases hrun : decoder.run cursor with
  | error fault => rfl
  | ok pair =>
      obtain ⟨-, hpasses⟩ := (h cursor hfits pair.1 pair.2).mp hrun
      have hreach : pair.2.claimed ≤ sizeLimit :=
        Nat.le_trans hpasses.fits (hpasses.limit_eq ▸ hlimit)
      dsimp only
      rw [word?_of_le hreach]
      rfl

/-- A part of the decoder, and what comes after it. -/
theorem part (h : decoder.Decodes valid form need) {machine : α → WordDecoder β}
    {next : α → Decoder β} (hnext : ∀ a, valid a → (machine a).Agrees (next a)) :
    Agrees (liftM decoder >>= machine) (decoder >>= next) :=
  (lift h).bind h hnext

/-- The place that the claims have reached is the same. -/
theorem reach {machine : Nat → WordDecoder α} {next : Nat → Decoder α}
    (h : ∀ claimed, (machine claimed).Agrees (next claimed)) :
    Agrees (get >>= fun cursor => machine cursor.claimed)
      (get >>= fun cursor => next cursor.claimed) := by
  intro cursor hfits hlimit
  exact h cursor.claimed cursor hfits hlimit

/-- A sum or a product that fits. -/
theorem fit {size : Option Nat} {exact : Nat} (hsize : size = some exact)
    {machine : Nat → WordDecoder α} (h : (machine exact).Agrees decoder) :
    Agrees (liftM size >>= machine) decoder := by
  subst hsize
  exact h

end Agrees

end WordDecoder

/-- Fewer than `2 ^ 32` lengths, each below `2 ^ 32`, have a sum that fits a word. -/
theorem totalSize_le_sizeLimit {lengths : List Nat} (hfew : lengths.length < wordBound 4)
    (hshort : ∀ length ∈ lengths, length < wordBound 4) : totalSize lengths ≤ sizeLimit := by
  have hbound : wordBound 4 = 0xffffffff + 1 := rfl
  rw [hbound] at hfew hshort
  have hsum : totalSize lengths ≤ lengths.length * 0xffffffff := by
    clear hfew
    induction lengths with
    | nil => exact Nat.zero_le _
    | cons length lengths ih =>
        have htotal : totalSize (length :: lengths) = length + totalSize lengths := rfl
        rw [List.forall_mem_cons] at hshort
        have hrest := ih hshort.2
        rw [htotal, List.length_cons]
        omega
  calc totalSize lengths
      ≤ lengths.length * 0xffffffff := hsum
    _ ≤ 0xffffffff * 0xffffffff := Nat.mul_le_mul_right _ (Nat.le_of_lt_succ hfew)
    _ ≤ sizeLimit := by decide

/-- **Sums and products fit a word**, whatever the bytes are. -/
theorem decodeSectionInWords_agrees : decodeSectionInWords.Agrees decodeSection := by
  have hproduct : ∀ {columns factor : Nat}, columns < wordBound 4 → factor ≤ 4 →
      word? (factor * columns) = some (factor * columns) := by
    intro columns factor hcolumns hfactor
    have hmul : factor * columns ≤ 4 * wordBound 4 :=
      Nat.mul_le_mul hfactor (Nat.le_of_lt hcolumns)
    exact word?_of_le (Nat.le_trans hmul (by decide))
  unfold decodeSectionInWords decodeSection
  refine .part decodeIdentity_decodes fun identity _ => ?_
  refine .part (decodePreamble_decodes identity.1 identity.2) fun preamble _ => ?_
  refine .part (checkCounts_decodes preamble) fun _ _ => ?_
  refine .part (decodeNative_decodes identity.1) fun native _ => ?_
  refine .part (Decodes.claim 4) fun _ _ => ?_
  refine .part (Decodes.word identity.1 4) fun columns hcolumns => ?_
  refine .fit (hproduct hcolumns (Nat.le_refl 4)) ?_
  refine .part (Decodes.claim _) fun _ _ => ?_
  refine .part ((Decodes.word identity.1 4).times columns) fun lengths hlengths => ?_
  have hsum := totalSize_le_sizeLimit (hlengths.1 ▸ hcolumns) hlengths.2
  refine .fit ((wordSum?_eq lengths).trans (word?_of_le hsum)) ?_
  refine .part (Decodes.claim _) fun _ _ => ?_
  refine .part (decodeNames_decodes [] lengths) fun names _ => ?_
  refine .fit (hproduct hcolumns (by decide)) ?_
  refine .part (Decodes.claim _) fun _ _ => ?_
  refine .part (decodeType_decodes.times columns) fun types _ => ?_
  exact .part (decodeWidths_decodes identity.2 names) fun widths _ => .pure _

theorem decodeHeaderInWords_agrees : decodeHeaderInWords.Agrees decodeHeader := by
  have hcolumns : ∀ (content : Section) (claimed : Nat),
      WordDecoder.Agrees
        (liftM (claim ((wordSum? ((List.range (content.toHeader claimed).layout.columns).map
          (content.toHeader claimed).layout.columnLength)).getD sizeLimit)) >>= fun _ =>
            pure (content.toHeader claimed))
        (claim (content.toHeader claimed).layout.dataSize >>= fun _ =>
          pure (content.toHeader claimed)) := by
    intro content claimed
    rw [wordSum?_eq, word?_getD]
    exact .part (Decodes.claim _) fun _ _ => .pure _
  unfold decodeHeaderInWords decodeHeader
  exact decodeSectionInWords_agrees.bind decodeSection_decodes fun content _ =>
    .reach (hcolumns content)

/-! ## The size check -/

namespace Header

/-- **The size check is exact.**  Behind a section that was decoded, a header is decoded exactly if
the file is said to have room for all columns, and otherwise it is said how much room they need, or
the greatest length if they need more than that.  On the way there no sum and no product of the
decoder is greater than a word. -/
theorem decode_eq_ite_room (stream : Stream) {length : Nat} (hlength : length ≤ sizeLimit) :
    (∀ s start, Section.decode stream length = .ok (s, start) →
      let header := s.toHeader start
      let total := header.layout.dataStart + header.layout.extentBefore header.layout.columns
      header.layout.dataStart = start ∧
        decode stream length =
          if total ≤ length then .ok header else .error (.truncated (min total sizeLimit) length)) ∧
    decodeHeaderInWords.run ⟨stream.contents, 0, length⟩ =
      some (decodeHeader.run ⟨stream.contents, 0, length⟩) := by
  refine ⟨fun s start hsection => ⟨rfl, ?_⟩, ?_⟩
  · exact decode_of_section hlength hsection
  · exact decodeHeaderInWords_agrees _ (Nat.zero_le _) hlength

/-- The section of a file that is said to hold as many particles as can be counted. -/
def crowdedSection : Section where
  version := 1
  order := .little
  preamble := .ofWords 1 [0x7fffffffffffffff, 0x7fffffffffffffff, 1, 1, 1, 0, 0, 0, 0, 0, 0, 0]
  native := []
  names := ["x", "id"]
  types := [.f64, .u64]
  widths := [3, 1]

theorem decode_eq_ite_room_crowded :
    Section.decode ⟨crowdedSection.encode, 7⟩ sizeLimit = .ok (crowdedSection, 129) ∧
      decode ⟨crowdedSection.encode, 7⟩ sizeLimit = .error (.truncated sizeLimit sizeLimit) ∧
      decodeHeaderInWords.run ⟨crowdedSection.encode, 0, sizeLimit⟩ =
        some (decodeHeader.run ⟨crowdedSection.encode, 0, sizeLimit⟩) := by
  have hsection : Section.decode ⟨crowdedSection.encode, 7⟩ sizeLimit = .ok (crowdedSection, 129) := by
    decide +kernel
  obtain ⟨hroom, hwords⟩ := decode_eq_ite_room ⟨crowdedSection.encode, 7⟩ (Nat.le_refl sizeLimit)
  refine ⟨hsection, (hroom _ _ hsection).2.trans ?_, hwords⟩
  decide +kernel

end Header

end Snapshot
