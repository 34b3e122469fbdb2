import Snapshot.Proofs.Read.Acceptance
import Snapshot.Proofs.Session.Answered

/-!
# Records and their parts

The fields of a record can also be read one by one, each into a buffer of its
own.  Records that were read are the fields put together, bit for bit, however
the file stores them and whatever the buffers held before (`records_eq_parts`).
The reads may have been made at different times and by different workers, as long
as the file had the same bytes.
-/

namespace Snapshot.Session

/-- A read of `text` into a buffer of single values has left `values`. -/
def Yields (bytes : Bytes) (text : String) (type : ElementType) (values : List (Element type)) :
    Prop :=
  ∃ old : List (Element type), Answered bytes text (.flat type old) (.ok ()) (.flat type values)

section

variable {bytes : Bytes} (hsize : bytes.length ≤ sizeLimit) {h : Header}
  (hdecode : Header.ofBytes bytes = .ok h)

include hsize hdecode

/-- Single values are the numbers at their places in the file. -/
theorem Yields.eq_numbers {text : String} {type : ElementType} {values : List (Element type)}
    (hyields : Yields bytes text type values) (selection : Selection)
    (hparse : Expression.parse text = .ok (.one selection)) :
    values = (List.range h.layout.count).map fun i =>
      h.numberAt bytes type selection.name i (selection.component.getD 0) := by
  obtain ⟨old, hanswered⟩ := hyields
  obtain ⟨expression, hfound, -, hwritten⟩ := hanswered.eq_written hdecode hsize
  obtain rfl : expression = .one selection := Except.ok.inj (hfound.symm.trans hparse)
  cases hwritten
  rfl

/-- Records are assembled from the numbers at their places in the file. -/
theorem Answered.eq_records {text : String} {old records : List Record}
    (hanswered : Answered bytes text (.records old) (.ok ()) (.records records))
    (hparse : Expression.parse text = .ok .records) :
    old.length = h.layout.count ∧
      records = (List.range h.layout.count).map (h.recordAt bytes) := by
  obtain ⟨expression, hfound, hlength, hwritten⟩ := hanswered.eq_written hdecode hsize
  obtain rfl : expression = .records := Except.ok.inj (hfound.symm.trans hparse)
  cases hwritten
  exact ⟨hlength, rfl⟩

end

/-- **Records are their parts put together.**  Where records and all their parts were read from the
same bytes, every part has the values of its field, in the order of the records. -/
theorem records_eq_parts {bytes : Bytes} (hsize : bytes.length ≤ sizeLimit)
    {old records : List Record}
    (hrecords : Answered bytes "[RockstarParticle]" (.records old) (.ok ()) (.records records))
    {x v : Triple (List (Element .f32))} {ids : List (Element .u64)}
    (hx₀ : Yields bytes "x[0]" .f32 x.first) (hx₁ : Yields bytes "x[1]" .f32 x.second)
    (hx₂ : Yields bytes "x[2]" .f32 x.third) (hv₀ : Yields bytes "v[0]" .f32 v.first)
    (hv₁ : Yields bytes "v[1]" .f32 v.second) (hv₂ : Yields bytes "v[2]" .f32 v.third)
    (hids : Yields bytes "id" .u64 ids) :
    records.length = old.length ∧
      ids = records.map (·.id) ∧
      x = ⟨records.map (·.position.first), records.map (·.position.second),
        records.map (·.position.third)⟩ ∧
      v = ⟨records.map (·.velocity.first), records.map (·.velocity.second),
        records.map (·.velocity.third)⟩ := by
  obtain ⟨h, hdecode⟩ := hrecords.exists_header
  obtain ⟨hlength, rfl⟩ := hrecords.eq_records hsize hdecode (by decide +kernel)
  obtain ⟨x₀, x₁, x₂⟩ := x
  obtain ⟨v₀, v₁, v₂⟩ := v
  simp only [List.map_map, Triple.mk.injEq]
  -- A part is the list of the numbers from which its field was assembled.
  refine ⟨?_, ?_, ⟨?_, ?_, ?_⟩, ?_, ?_, ?_⟩
  · rw [List.length_map, List.length_range, hlength]
  · exact hids.eq_numbers hsize hdecode ⟨identifierColumn, none⟩ (by decide +kernel)
  · exact hx₀.eq_numbers hsize hdecode ⟨positionColumn, some 0⟩ (by decide +kernel)
  · exact hx₁.eq_numbers hsize hdecode ⟨positionColumn, some 1⟩ (by decide +kernel)
  · exact hx₂.eq_numbers hsize hdecode ⟨positionColumn, some 2⟩ (by decide +kernel)
  · exact hv₀.eq_numbers hsize hdecode ⟨velocityColumn, some 0⟩ (by decide +kernel)
  · exact hv₁.eq_numbers hsize hdecode ⟨velocityColumn, some 1⟩ (by decide +kernel)
  · exact hv₂.eq_numbers hsize hdecode ⟨velocityColumn, some 2⟩ (by decide +kernel)

/-- The particle of a file whose bytes are counted up. -/
def countedRecord : Record where
  id := 0x1f1e1d1c1b1a1918
  position := ⟨0x03020100, 0x07060504, 0x0b0a0908⟩
  velocity := ⟨0x0f0e0d0c, 0x13121110, 0x17161514⟩

theorem records_eq_parts_recordFile :
    Answered (Layout.recordFile 1) "[RockstarParticle]"
        (.records [⟨9, .replicate 9, .replicate 9⟩]) (.ok ()) (.records [countedRecord]) ∧
      [0x1f1e1d1c1b1a1918] = [countedRecord].map (·.id) ∧
      ⟨[0x03020100], [0x07060504], [0x0b0a0908]⟩ =
        (⟨[countedRecord].map (·.position.first), [countedRecord].map (·.position.second),
          [countedRecord].map (·.position.third)⟩ : Triple (List (Element .f32))) ∧
      ⟨[0x0f0e0d0c], [0x13121110], [0x17161514]⟩ =
        (⟨[countedRecord].map (·.velocity.first), [countedRecord].map (·.velocity.second),
          [countedRecord].map (·.velocity.third)⟩ : Triple (List (Element .f32))) := by
  have hsize : (Layout.recordFile 1).length ≤ sizeLimit := by decide +kernel
  have hrecords : Answered (Layout.recordFile 1) "[RockstarParticle]"
      (.records [⟨9, .replicate 9, .replicate 9⟩]) (.ok ()) (.records [countedRecord]) :=
    .of_onlyFile (by decide +kernel)
  have hx₀ : Yields (Layout.recordFile 1) "x[0]" .f32 [0x03020100] :=
    ⟨[9], .of_onlyFile (by decide +kernel)⟩
  have hx₁ : Yields (Layout.recordFile 1) "x[1]" .f32 [0x07060504] :=
    ⟨[9], .of_onlyFile (by decide +kernel)⟩
  have hx₂ : Yields (Layout.recordFile 1) "x[2]" .f32 [0x0b0a0908] :=
    ⟨[9], .of_onlyFile (by decide +kernel)⟩
  have hv₀ : Yields (Layout.recordFile 1) "v[0]" .f32 [0x0f0e0d0c] :=
    ⟨[9], .of_onlyFile (by decide +kernel)⟩
  have hv₁ : Yields (Layout.recordFile 1) "v[1]" .f32 [0x13121110] :=
    ⟨[9], .of_onlyFile (by decide +kernel)⟩
  have hv₂ : Yields (Layout.recordFile 1) "v[2]" .f32 [0x17161514] :=
    ⟨[9], .of_onlyFile (by decide +kernel)⟩
  have hids : Yields (Layout.recordFile 1) "id" .u64 [0x1f1e1d1c1b1a1918] :=
    ⟨[9], .of_onlyFile (by decide +kernel)⟩
  exact ⟨hrecords, (records_eq_parts hsize hrecords hx₀ hx₁ hx₂ hv₀ hv₁ hv₂ hids).2⟩

end Snapshot.Session
