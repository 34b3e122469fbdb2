import Snapshot.Proofs.Element.Packed
import Snapshot.Proofs.Header.Claims
import Snapshot.Record

/-!
# Streams of records

A stream of records says nothing about itself: whoever reads it has to take every field from its
place.  `Record.read` reads the fields one after the other in their order, and `Record.decode`,
which takes them from places counted out beforehand, does the same (`Record.decode_eq_run_read`).

What `read` accepts is described exactly (`Record.read_decodes`): every record is read from its
own bytes, whatever stands behind them, and what was read from bytes is written as these bytes.
Since all records have the same size, each one of a stream is found at its multiple of it.
-/

namespace Snapshot

open Decoder

/-! ## Reading in order -/

/-- Reads an element. -/
def Decoder.element (type : ElementType) (order : ByteOrder) : Decoder (Element type) := do
  let pattern ← word order type.size
  pure (Element.ofPattern type pattern)

/-- Reads three values. -/
def Decoder.triple {α : Type} (one : Decoder α) : Decoder (Triple α) := do
  let first ← one
  let second ← one
  let third ← one
  pure ⟨first, second, third⟩

namespace Record

variable (order : ByteOrder)

/-- Reads the fields of a record in their order. -/
def read : Decoder Record := do
  let id ← element .u64 order
  let position ← triple (element .f32 order)
  let velocity ← triple (element .f32 order)
  pure ⟨id, position, velocity⟩

/-- The fields stand one behind the other, and the first that is not there as a whole ends it. -/
theorem decode_eq_run_read (bytes : Bytes) :
    decode order bytes = ((read order).run ⟨bytes, 0, 0⟩).map Prod.fst := by
  simp only [read, element, triple, bind_assoc, pure_bind, run_word_bind, Cursor.reading,
    List.drop_drop, List.length_drop, ElementType.size, Nat.reduceAdd]
  by_cases hshort : bytes.length < size
  · rw [decode, if_pos hshort]
    change bytes.length < 32 at hshort
    split_ifs <;> first | rfl | omega
  · rw [decode, if_neg hshort]
    change ¬bytes.length < 32 at hshort
    split_ifs <;> first | rfl | omega

theorem element_decodes (type : ElementType) :
    (element type order).Decodes (fun _ => True) (Element.encode order) fun _ => 0 := by
  refine (Decodes.word order type.size).bind (fun pattern _ => Decodes.pure _) (fun e => ?_) ?_
    fun _ _ _ _ => rfl
  · exact iff_of_true trivial
      ⟨e.toNat, e.toNat_lt_wordBound, by simp [Element.ofPattern]⟩
  · rintro pattern e hpattern rfl
    rw [Element.encode, Element.toNat_ofPattern hpattern, List.append_nil]

/-- Three values, one behind the other. -/
theorem triple_decodes {α : Type} {one : Decoder α} {form : α → Bytes}
    (h : one.Decodes (fun _ => True) form fun _ => 0) :
    (triple one).Decodes (fun _ => True) (fun t => t.toList.flatMap form) fun _ => 0 := by
  have hthird (first second : α) : Decoder.Decodes
      (one >>= fun third => pure (Triple.mk first second third)) _ _ _ :=
    h.bindKey Triple.third (fun third _ => Decodes.pure _) (by rintro third t - rfl; rfl)
  have hsecond (first : α) := h.bindKey Triple.second (fun second _ => hthird first second)
    (by rintro second t - ⟨-, ht⟩; rw [ht])
  have hfirst := h.bindKey Triple.first (fun first _ => hsecond first)
    (by rintro first t - ⟨-, -, ht⟩; rw [ht])
  exact hfirst.congr (fun t => by simp) (fun t _ => by simp [Triple.toList]) fun t _ => rfl

/-- **A record is read from its own bytes and no others**, field by field. -/
theorem read_decodes : (read order).Decodes (fun _ => True) (encode order) fun _ => 0 := by
  have htriple := triple_decodes (element_decodes order .f32)
  have hvelocity (id : Element .u64) (position : Triple (Element .f32)) : Decoder.Decodes
      (triple (element .f32 order) >>= fun velocity => pure (Record.mk id position velocity))
        _ _ _ :=
    htriple.bindKey Record.velocity (fun velocity _ => Decodes.pure _)
      (by rintro velocity record - rfl; rfl)
  have hposition (id : Element .u64) :=
    htriple.bindKey Record.position (fun position _ => hvelocity id position)
      (by rintro position record - ⟨-, hrecord⟩; rw [hrecord])
  have hid := (element_decodes order .u64).bindKey Record.id (fun id _ => hposition id)
    (by rintro id record - ⟨-, -, hrecord⟩; rw [hrecord])
  exact hid.congr (fun record => by simp) (fun record _ => by simp [encode]) fun record _ => rfl

/-! ## Reading what was written -/

@[simp] theorem length_encode (record : Record) : (encode order record).length = size := by
  simp [encode, Triple.toList, ElementType.size, size]

/-- What stands behind a record makes no difference to it. -/
theorem decode_encode_append (record : Record) (rest : Bytes) :
    decode order (encode order record ++ rest) = .ok record := by
  have hrun := (read_decodes order ⟨encode order record ++ rest, 0, 0⟩ (Nat.le_refl 0) record
    ⟨rest, 0, 0⟩).mpr ⟨trivial, rfl, rfl, rfl, Nat.le_refl 0⟩
  rw [decode_eq_run_read, hrun]
  rfl

/-- What was read is what stands there. -/
theorem encode_of_decode {bytes : Bytes} {record : Record} (h : decode order bytes = .ok record) :
    encode order record = bytes.take size := by
  rw [decode_eq_run_read] at h
  cases hrun : (read order).run ⟨bytes, 0, 0⟩ with
  | error fault =>
      rw [hrun] at h
      cases h
  | ok pair =>
      rw [hrun] at h
      cases h
      obtain ⟨-, hpasses⟩ := (read_decodes order _ (Nat.le_refl 0) pair.1 pair.2).mp hrun
      have hbytes : bytes = encode order pair.1 ++ pair.2.rest := hpasses.rest_eq
      rw [hbytes, List.take_left' (length_encode order pair.1)]

/-- Bytes for a whole record are a record, whatever they are. -/
theorem exists_decode {bytes : Bytes} (hlength : size ≤ bytes.length) :
    ∃ record, decode order bytes = .ok record := by
  unfold decode
  rw [if_neg (Nat.not_lt.mpr hlength)]
  exact ⟨_, rfl⟩

/-! ## Streams -/

theorem length_encodeAll (records : List Record) :
    (encodeAll order records).length = records.length * size :=
  length_flatMap_of_forall (length_encode order) records

/-- From the start of a record on, a stream begins with it. -/
theorem drop_encodeAll (records : List Record) {i : Nat} (hi : i < records.length) :
    (encodeAll order records).drop (i * size) =
      encode order records[i] ++ encodeAll order (records.drop (i + 1)) := by
  have hbefore : ((records.take i).flatMap (encode order)).length = i * size := by
    rw [length_flatMap_of_forall (length_encode order), List.length_take_of_le (Nat.le_of_lt hi)]
  rw [encodeAll, flatMap_eq_around _ records hi, List.drop_left' hbefore]
  rfl

/-- **Streams of records are a faithful codec.**  Records are written in 32 bytes each, and each one
is read from its multiple of 32 on, whatever stands behind the stream.  What is read are the fields
one after the other; with fewer than 32 bytes there is no record, and from 32 bytes on the record
is the one that is written as the first 32 of them. -/
theorem streams_faithful :
    (∀ (records : List Record) (rest : Bytes),
      (encodeAll order records).length = 32 * records.length ∧
        ∀ i : Fin records.length,
          decode order ((encodeAll order records).drop (32 * i) ++ rest) = .ok records[i]) ∧
    ∀ bytes : Bytes,
      decode order bytes = ((read order).run ⟨bytes, 0, 0⟩).map Prod.fst ∧
        if bytes.length < 32 then decode order bytes = .error .endOfWord
        else ∃ record, decode order bytes = .ok record ∧
          encodeAll order [record] = bytes.take 32 := by
  constructor
  · intro records rest
    refine ⟨(length_encodeAll order records).trans (Nat.mul_comm _ _), fun i => ?_⟩
    rw [Nat.mul_comm 32, show 32 = size from rfl, drop_encodeAll order records i.isLt,
      List.append_assoc, decode_encode_append]
    rfl
  · intro bytes
    refine ⟨decode_eq_run_read order bytes, ?_⟩
    split_ifs with hshort
    · exact if_pos hshort
    · obtain ⟨record, hrecord⟩ := exists_decode order (Nat.not_lt.mp hshort)
      refine ⟨record, hrecord, ?_⟩
      rw [encodeAll, List.flatMap_singleton, encode_of_decode order hrecord]
      rfl

/-- An identifier and six numbers, the least significant bytes first. -/
example :
    encodeAll .little [⟨0x0102030405060708, ⟨0x3f800000, 0, 0⟩, ⟨0, 0, 0x7fc00001⟩⟩] =
      [8, 7, 6, 5, 4, 3, 2, 1, 0, 0, 0x80, 0x3f, 0, 0, 0, 0, 0, 0, 0, 0, 0, 0, 0, 0, 0, 0, 0, 0,
        1, 0, 0xc0, 0x7f] := by
  decide

end Record

end Snapshot
