import Snapshot.Proofs.Read.Records

/-!
# What is accepted

A request is accepted where its text is an expression, the file has all parts of
it, and the buffer fits.  Particle records want positions and velocities that are
stored as vectors, and nothing of the identifiers, which every file has
(`Layout.accepts_records_iff`).

The parts of a record can be asked for one by one.  They are all accepted exactly
where records are, except from a file that stores identifiers as a vector: a
record takes the first component, while a buffer with one identifier for each
particle is refused (`Layout.accepts_parts_iff`).
-/

namespace Snapshot

theorem mem_recordParts_iff {selection : Selection} :
    selection ∈ recordParts ↔
      (∃ axis, axis ≤ greatestComponent ∧
        (selection = ⟨positionColumn, some axis⟩ ∨ selection = ⟨velocityColumn, some axis⟩)) ∨
      selection = ⟨identifierColumn, none⟩ := by
  have haxis : ∀ axis, axis ∈ [0, 1, 2] ↔ axis ≤ greatestComponent := by
    intro axis
    simp only [List.mem_cons, List.not_mem_nil, or_false, greatestComponent]
    omega
  have hcomponents : ∀ name : String,
      selection ∈ [0, 1, 2].map (fun axis => (⟨name, some axis⟩ : Selection)) ↔
        ∃ axis, axis ≤ greatestComponent ∧ selection = ⟨name, some axis⟩ := by
    intro name
    simp only [List.mem_map, haxis, eq_comm]
  unfold recordParts
  dsimp only
  rw [List.mem_append, List.mem_append, hcomponents, hcomponents, List.mem_singleton, ← exists_or]
  simp only [and_or_left]

/-- What holds of all parts of a record, if it depends for a component on the column alone. -/
theorem forall_mem_recordParts_iff {p : Selection → Prop} {q : String → Prop}
    (hcomponent : ∀ name axis, ⟨name, some axis⟩ ∈ recordParts → (p ⟨name, some axis⟩ ↔ q name)) :
    (∀ selection ∈ recordParts, p selection) ↔
      (q positionColumn ∧ q velocityColumn) ∧ p ⟨identifierColumn, none⟩ := by
  constructor
  · intro h
    have hfirst : ∀ name, ⟨name, some 0⟩ ∈ recordParts → q name :=
      fun name hpart => (hcomponent name 0 hpart).mp (h _ hpart)
    exact ⟨⟨hfirst positionColumn (by decide), hfirst velocityColumn (by decide)⟩,
      h _ (mem_recordParts_iff.mpr (.inr rfl))⟩
  · rintro ⟨⟨hposition, hvelocity⟩, hidentifier⟩ selection hpart
    rcases mem_recordParts_iff.mp hpart with ⟨axis, -, rfl | rfl⟩ | rfl
    · exact (hcomponent _ axis hpart).mpr hposition
    · exact (hcomponent _ axis hpart).mpr hvelocity
    · exact hidentifier

/-- Every part of a record is an expression of its own. -/
theorem parse_render_recordParts :
    ∀ selection ∈ recordParts, Expression.parse selection.render = .ok (.one selection) := by
  decide +kernel

namespace Layout

/-- The text is an expression that can be read from the file into the buffer. -/
def Accepts (layout : Layout) (text : String) (buffer : Buffer) : Prop :=
  ∃ accesses, planRead layout text buffer = .ok accesses

theorem StoresTriples.mem_names {layout : Layout} {name : String}
    (h : layout.StoresTriples name) : name ∈ layout.names := by
  obtain ⟨column, hname, -⟩ := h
  exact List.mem_of_getElem? hname

/-- A component is admitted into single values where its column is a vector. -/
theorem admits_component_iff {layout : Layout} {name : String} {axis : Nat} {buffer : Buffer}
    (hflat : buffer.shape = .flat) (hlength : buffer.length = layout.count) :
    layout.Admits ⟨name, some axis⟩ buffer ↔ layout.StoresTriples name := by
  constructor
  · intro h
    exact h.component_of_triple (Option.some_ne_none axis)
  · intro h
    exact ⟨.inl h.mem_names, fun _ => h, nofun, fun _ => hflat, hlength⟩

/-- Identifiers are admitted into single values unless they are stored as a vector. -/
theorem admits_identifier_iff {layout : Layout} {buffer : Buffer} (hflat : buffer.shape = .flat)
    (hlength : buffer.length = layout.count) :
    layout.Admits ⟨identifierColumn, none⟩ buffer ↔ ¬layout.StoresTriples identifierColumn := by
  constructor
  · intro h htriple
    have htriples := h.shape_triples rfl htriple
    rw [hflat] at htriples
    cases htriples
  · intro h
    exact ⟨.inr rfl, fun hsome => absurd rfl hsome, fun _ htriple => absurd htriple h,
      fun _ => hflat, hlength⟩

section

variable {layout : Layout} (htabled : layout.Tabled)

include htabled

/-- A single selection is accepted where the layout admits it. -/
theorem accepts_one_iff {text : String} {selection : Selection} {buffer : Buffer}
    (hparse : Expression.parse text = .ok (.one selection)) :
    layout.Accepts text buffer ↔ layout.Admits selection buffer := by
  unfold Accepts
  simp only [planRead_one_eq_ok_iff htabled hparse]
  constructor
  · intro h
    rcases h with ⟨_, hadmits, -⟩
    exact hadmits
  · intro h
    exact ⟨_, h, rfl⟩

/-- A component passes its check where its column is a vector. -/
theorem check_component_iff {name : String} {axis : Nat} :
    Selection.check layout ⟨name, some axis⟩ = .ok () ↔
      axis ≤ greatestComponent ∧ layout.StoresTriples name := by
  rw [Selection.check_eq_ok_iff]
  constructor
  · intro h
    obtain ⟨hle, htriple⟩ := h.2 axis rfl
    exact ⟨hle, (any_isTriple_iff htabled).mp htriple⟩
  · intro h
    refine ⟨.inl h.2.mem_names, fun index hindex => ?_⟩
    cases hindex
    exact ⟨h.1, (any_isTriple_iff htabled).mpr h.2⟩

/-- The parts of a record pass their checks where positions and velocities are vectors. -/
theorem check_recordParts_iff :
    (∀ selection ∈ recordParts, selection.check layout = .ok ()) ↔
      layout.StoresTriples positionColumn ∧ layout.StoresTriples velocityColumn := by
  have hcomponent : ∀ name axis, ⟨name, some axis⟩ ∈ recordParts →
      (Selection.check layout ⟨name, some axis⟩ = .ok () ↔ layout.StoresTriples name) := by
    intro name axis hpart
    have hle := Expression.component_le_of_parse (parse_render_recordParts _ hpart) rfl
    rw [check_component_iff htabled]
    exact and_iff_right hle
  rw [forall_mem_recordParts_iff hcomponent]
  exact and_iff_left (Selection.check_eq_ok_iff.mpr ⟨.inr rfl, nofun⟩)

/-- **Records are accepted** where positions and velocities are vectors, however identifiers are
stored. -/
theorem accepts_records_iff {text : String} (hparse : Expression.parse text = .ok .records)
    {buffer : Buffer} :
    layout.Accepts text buffer ↔
      (layout.StoresTriples positionColumn ∧ layout.StoresTriples velocityColumn) ∧
        buffer.shape = .records ∧ buffer.length = layout.count := by
  unfold Accepts
  simp only [planRead_eq_ok_iff, ← check_recordParts_iff htabled]
  constructor
  · intro h
    rcases h with ⟨_, expression, hfound, hchecks, rfl, hbuffer⟩
    obtain rfl : expression = .records := Except.ok.inj (hfound.symm.trans hparse)
    exact ⟨hchecks, hbuffer⟩
  · intro h
    exact ⟨_, .records, hparse, h.1, rfl, h.2⟩

end

/-- **Records are accepted where their parts are**, but for identifiers that are stored as a vector.
Such identifiers are refused as a part, since a buffer with one value for each particle cannot have
them.  Records are accepted wherever positions and velocities are vectors, those identifiers or
not. -/
theorem accepts_parts_iff {bytes : Bytes} {h : Header} (hdecode : Header.ofBytes bytes = .ok h)
    (records : List Record) (flat : Selection → Buffer)
    (hrecords : records.length = h.layout.count)
    (hflat : ∀ selection ∈ recordParts,
      (flat selection).shape = .flat ∧ (flat selection).length = h.layout.count) :
    ((∀ selection ∈ recordParts, h.layout.Accepts selection.render (flat selection)) ↔
      h.layout.Accepts "[RockstarParticle]" (.records records) ∧
        ¬h.layout.StoresTriples identifierColumn) ∧
    (h.layout.Accepts (Selection.render ⟨identifierColumn, none⟩)
        (flat ⟨identifierColumn, none⟩) ↔ ¬h.layout.StoresTriples identifierColumn) ∧
    (h.layout.Accepts "[RockstarParticle]" (.records records) ↔
      h.layout.StoresTriples positionColumn ∧ h.layout.StoresTriples velocityColumn) := by
  have htabled := Header.tabled_of_ofBytes hdecode
  have hcomponent : ∀ name axis, ⟨name, some axis⟩ ∈ recordParts →
      (h.layout.Accepts (Selection.render ⟨name, some axis⟩) (flat ⟨name, some axis⟩) ↔
        h.layout.StoresTriples name) := by
    intro name axis hpart
    obtain ⟨hshape, hlength⟩ := hflat _ hpart
    rw [accepts_one_iff htabled (parse_render_recordParts _ hpart)]
    exact admits_component_iff hshape hlength
  have hidentifier : h.layout.Accepts (Selection.render ⟨identifierColumn, none⟩)
      (flat ⟨identifierColumn, none⟩) ↔ ¬h.layout.StoresTriples identifierColumn := by
    have hpart : ⟨identifierColumn, none⟩ ∈ recordParts := mem_recordParts_iff.mpr (.inr rfl)
    obtain ⟨hshape, hlength⟩ := hflat _ hpart
    rw [accepts_one_iff htabled (parse_render_recordParts _ hpart)]
    exact admits_identifier_iff hshape hlength
  have hwhole : h.layout.Accepts "[RockstarParticle]" (.records records) ↔
      h.layout.StoresTriples positionColumn ∧ h.layout.StoresTriples velocityColumn := by
    rw [accepts_records_iff htabled (by decide +kernel)]
    exact and_iff_left ⟨rfl, hrecords⟩
  refine ⟨?_, hidentifier, hwhole⟩
  rw [forall_mem_recordParts_iff hcomponent, hidentifier, hwhole]

/-- A table with positions, velocities, and identifiers of a given width. -/
def recordSection (width : UInt8) : Section where
  version := 2
  order := .little
  preamble := .ofWords 2 [0, 1, 1, 1, 1, 1, 0, 0, 0, 1, 1, 1, 7, 0, 0, 0, 0, 0, 0]
  native := []
  names := ["x", "v", "id"]
  types := [.f32, .f32, .u64]
  widths := [3, 3, width]

/-- A file with this table and the values of one particle, whose bytes are counted up. -/
def recordFile (width : UInt8) : Bytes :=
  (recordSection width).encode ++ (List.range (24 + 8 * width.toNat)).map UInt8.ofNat

/-- Records for one particle. -/
def oneRecord : List Record := [⟨0, .replicate 0, .replicate 0⟩]

theorem accepts_parts_iff_singleIds :
    let single := (recordSection 1).toHeader 196
    let triple := (recordSection 3).toHeader 196
    Header.ofBytes (recordFile 1) = .ok single ∧ Header.ofBytes (recordFile 3) = .ok triple ∧
      (∀ selection ∈ recordParts, single.layout.Accepts selection.render (.flat .f64 [0])) ∧
      ¬triple.layout.Accepts (Selection.render ⟨identifierColumn, none⟩) (.flat .f64 [0]) ∧
      triple.layout.Accepts "[RockstarParticle]" (.records oneRecord) := by
  intro single triple
  have hsingle : Header.ofBytes (recordFile 1) = .ok single := by decide +kernel
  have htriple : Header.ofBytes (recordFile 3) = .ok triple := by decide +kernel
  have hids : ¬single.layout.StoresTriples identifierColumn := by
    rw [← any_isTriple_iff (Header.tabled_of_ofBytes hsingle)]
    decide +kernel
  obtain ⟨hparts, -, -⟩ := accepts_parts_iff hsingle oneRecord (fun _ => .flat .f64 [0]) rfl
    fun _ _ => ⟨rfl, rfl⟩
  obtain ⟨-, hidentifier, hrecords⟩ := accepts_parts_iff htriple oneRecord
    (fun _ => .flat .f64 [0]) rfl fun _ _ => ⟨rfl, rfl⟩
  exact ⟨hsingle, htriple, hparts.mpr ⟨⟨_, rfl⟩, hids⟩, fun haccepted =>
    hidentifier.mp haccepted ⟨2, rfl, rfl⟩, hrecords.mpr ⟨⟨0, rfl, rfl⟩, ⟨1, rfl, rfl⟩⟩⟩

/-- From a file that stores identifiers as a vector, records are accepted and identifiers are not. -/
theorem not_all_accepts_parts_iff :
    ¬∀ (bytes : Bytes) (h : Header), Header.ofBytes bytes = .ok h →
      ∀ (records : List Record) (flat : Selection → Buffer), records.length = h.layout.count →
        (∀ selection ∈ recordParts,
          (flat selection).shape = .flat ∧ (flat selection).length = h.layout.count) →
        (h.layout.Accepts "[RockstarParticle]" (.records records) ↔
          ∀ selection ∈ recordParts, h.layout.Accepts selection.render (flat selection)) := by
  intro hclaim
  have haccepted : ((recordSection 3).toHeader 196).layout.Accepts "[RockstarParticle]"
      (.records oneRecord) := ⟨_, rfl⟩
  have hparts := (hclaim (recordFile 3) _ (by decide +kernel) _ (fun _ => .flat .f64 [0]) rfl
    fun _ _ => ⟨rfl, rfl⟩).mp haccepted
  obtain ⟨accesses, hplan⟩ := hparts ⟨identifierColumn, none⟩ (by decide)
  have hrefused : planRead ((recordSection 3).toHeader 196).layout "id" (.flat .f64 [0]) =
      .error (.bufferShape "id" .triples .flat) := by decide +kernel
  rw [show Selection.render ⟨identifierColumn, none⟩ = "id" from rfl, hrefused] at hplan
  cases hplan

end Layout

end Snapshot
