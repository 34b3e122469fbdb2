import Snapshot.Proofs.Element.Run

/-!
# Packed elements one by one

Packed bytes are whole elements with perhaps a rest behind them that is too short for one more.
Converting them takes every whole element on its own, in its order, and drops the rest
(`convertPacked_eq_ok`).  It makes no difference that elements of one and the same type are copied
in place of being decoded and encoded again: the codec gives back the bytes of every element, be
it a number or not (`Element.encode_decode`).

What else there is to say follows from this.  Bytes that end with a whole element may be converted
ahead of those behind them.  And an element in the other byte order is the same bytes turned
round, before the conversion as after it.
-/

namespace Snapshot

/-! ## Whole elements -/

/-- The bytes without the rest that is too short for an element. -/
def wholeBytes (size : Nat) (raw : Bytes) : Bytes := raw.take (raw.length / size * size)

theorem length_wholeElements (size : Nat) (raw : Bytes) :
    (wholeElements size raw).length = raw.length / size := by
  simp [wholeElements, pieces_eq_map]

theorem length_of_mem_wholeElements {size : Nat} {raw piece : Bytes}
    (hpiece : piece ∈ wholeElements size raw) : piece.length = size := by
  rw [wholeElements, pieces_eq_map, List.mem_map] at hpiece
  obtain ⟨index, hindex, rfl⟩ := hpiece
  -- The element ends where the next one begins, which is within the bytes.
  have hend : (index + 1) * size ≤ raw.length :=
    Nat.le_trans (Nat.mul_le_mul_right size (List.mem_range.mp hindex))
      (Nat.div_mul_le_self raw.length size)
  rw [Nat.succ_mul] at hend
  simp only [elementBytes, List.length_take, List.length_drop]
  omega

theorem length_flatten_of_forall {size : Nat} {members : List Bytes}
    (hmembers : ∀ piece ∈ members, piece.length = size) :
    members.flatten.length = members.length * size := by
  induction members with
  | nil => simp
  | cons piece members ih =>
      rw [List.forall_mem_cons] at hmembers
      simp [hmembers.1, ih hmembers.2, Nat.succ_mul, Nat.add_comm]

/-- Cutting undoes joining, whatever too short rest is joined on. -/
theorem wholeElements_flatten_append {size : Nat} {members : List Bytes}
    (hmembers : ∀ piece ∈ members, piece.length = size) {rest : Bytes}
    (hrest : rest.length < size) :
    wholeElements size (members.flatten ++ rest) = members := by
  have hcount : (members.flatten ++ rest).length / size = members.length := by
    rw [List.length_append, length_flatten_of_forall hmembers, Nat.mul_comm,
      Nat.mul_add_div (by omega), Nat.div_eq_of_lt hrest, Nat.add_zero]
  rw [wholeElements, hcount]
  clear hcount
  induction members with
  | nil => rfl
  | cons piece members ih =>
      rw [List.forall_mem_cons] at hmembers
      rw [List.length_cons, pieces, List.flatten_cons, List.append_assoc,
        List.take_left' hmembers.1, List.drop_left' hmembers.1, ih hmembers.2]

/-- Joining undoes cutting, but for the rest that was dropped. -/
theorem flatten_wholeElements (size : Nat) (raw : Bytes) :
    (wholeElements size raw).flatten = wholeBytes size raw := by
  unfold wholeElements wholeBytes
  generalize raw.length / size = count
  induction count generalizing raw with
  | zero => simp [pieces]
  | succ count ih => rw [pieces, List.flatten_cons, ih, Nat.succ_mul, Nat.add_comm, List.take_add]

theorem wholeBytes_append_drop (size : Nat) (raw : Bytes) :
    wholeBytes size raw ++ raw.drop (raw.length / size * size) = raw :=
  List.take_append_drop _ raw

theorem length_drop_wholeBytes_lt {size : Nat} (hsize : 0 < size) (raw : Bytes) :
    (raw.drop (raw.length / size * size)).length < size := by
  have hmod := Nat.mod_lt raw.length hsize
  have hdiv := Nat.div_add_mod' raw.length size
  rw [List.length_drop]
  omega

/-- Behind whole elements the cutting begins anew. -/
theorem wholeElements_append {size : Nat} (hsize : 0 < size) {raw : Bytes}
    (hwhole : size ∣ raw.length) (others : Bytes) :
    wholeElements size (raw ++ others) = wholeElements size raw ++ wholeElements size others := by
  have hraw : (wholeElements size raw).flatten = raw := by
    rw [flatten_wholeElements, wholeBytes, Nat.div_mul_cancel hwhole, List.take_length]
  have hjoined : raw ++ others = (wholeElements size raw ++ wholeElements size others).flatten ++
      others.drop (others.length / size * size) := by
    rw [List.flatten_append, hraw, flatten_wholeElements, List.append_assoc,
      wholeBytes_append_drop]
  rw [hjoined]
  apply wholeElements_flatten_append _ (length_drop_wholeBytes_lt hsize others)
  intro piece hpiece
  rcases List.mem_append.mp hpiece with hpiece | hpiece
  · exact length_of_mem_wholeElements hpiece
  · exact length_of_mem_wholeElements hpiece

/-! ## The codec of an element -/

namespace Element

variable {type : ElementType}

theorem toNat_lt_wordBound (e : Element type) : e.toNat < wordBound type.size := by
  have hlimit := e.isLt
  rwa [Nat.pow_mul] at hlimit

theorem toNat_ofPattern {pattern : Nat} (hpattern : pattern < wordBound type.size) :
    (ofPattern type pattern).toNat = pattern := by
  rw [wordBound, Nat.pow_eq, show 256 = 2 ^ 8 from rfl, ← Nat.pow_mul] at hpattern
  exact Nat.mod_eq_of_lt hpattern

/-- Bytes of the right number are those of the element that they store. -/
theorem encode_decode (order : ByteOrder) {bytes : Bytes} (hlength : bytes.length = type.size) :
    encode order (decode type order bytes) = bytes := by
  rw [encode, decode, toNat_ofPattern (hlength ▸ order.decode_lt bytes), ← hlength,
    ByteOrder.encode_decode]

theorem encode_flip (order : ByteOrder) (e : Element type) :
    encode order.flip e = (encode order e).reverse := by
  cases order <;> simp [encode, ByteOrder.encode, ByteOrder.flip, ByteOrder.arrange]

theorem decode_flip_reverse (order : ByteOrder) (bytes : Bytes) :
    decode type order.flip bytes.reverse = decode type order bytes := by
  cases order <;> simp [decode, ByteOrder.decode, ByteOrder.flip, ByteOrder.arrange]

end Element

/-! ## Conversion -/

variable (source target : ElementType) (order : ByteOrder)

/-- The bytes of one element as those of an element of another type. -/
def recode (piece : Bytes) : Bytes :=
  ((Element.decode source order piece).convert target).encode order

/-- Every whole element on its own. -/
def recodeEach (raw : Bytes) : Bytes :=
  (wholeElements source.size raw).flatMap (recode source target order)

/-- Every whole element with its bytes turned round.  The rest stays as it is. -/
def turnEach (size : Nat) (raw : Bytes) : Bytes :=
  (wholeElements size raw).flatMap List.reverse ++ raw.drop (raw.length / size * size)

@[simp] theorem length_recode (piece : Bytes) :
    (recode source target order piece).length = target.size := by
  simp [recode]

theorem length_recodeEach (raw : Bytes) :
    (recodeEach source target order raw).length = raw.length / source.size * target.size := by
  rw [recodeEach, length_flatMap_of_forall (length_recode source target order),
    length_wholeElements]

/-- An element that keeps its type keeps its bytes. -/
theorem recode_self {piece : Bytes} (hlength : piece.length = source.size) :
    recode source source order piece = piece := by
  rw [recode, Element.convert_self, Element.encode_decode order hlength]

theorem recode_flip_reverse (piece : Bytes) :
    recode source target order.flip piece.reverse =
      (recode source target order piece).reverse := by
  rw [recode, Element.decode_flip_reverse, Element.encode_flip, recode]

/-- **The copy is no exception**: it is what decoding and encoding again gives. -/
theorem recodeEach_self (raw : Bytes) :
    recodeEach source source order raw = wholeBytes source.size raw := by
  have hpieces : (wholeElements source.size raw).map (recode source source order) =
      (wholeElements source.size raw).map id :=
    List.map_congr_left fun piece hpiece =>
      recode_self source order (length_of_mem_wholeElements hpiece)
  rw [recodeEach, List.flatMap_def, hpieces, List.map_id, flatten_wholeElements]

/-- Conversion never fails, and it is that of each element. -/
theorem convertPacked_eq_ok (raw : Bytes) :
    convertPacked source target order raw = .ok (recodeEach source target order raw) := by
  unfold convertPacked
  by_cases hsame : source = target
  · subst hsame
    have hwhole :
        raw.length - raw.length % source.size = raw.length / source.size * source.size := by
      have := Nat.div_add_mod' raw.length source.size
      omega
    rw [if_pos rfl, hwhole, recodeEach_self, wholeBytes]
  · rw [if_neg hsame]
    -- The run takes every element from the first on, and ends with the last that is whole.
    let run : Run := ⟨source, order, 1, 0, raw.length / source.size⟩
    have hfits : run.count = 0 ∨ run.needed ≤ raw.length := by
      rcases Nat.eq_zero_or_pos (raw.length / source.size) with hzero | hpos
      · exact .inl hzero
      · right
        have hneeded : run.needed = raw.length / source.size * source.size := by
          have hcount : raw.length / source.size - 1 + 1 = raw.length / source.size := by omega
          simp [run, Run.needed, Run.step, hcount]
        rw [hneeded]
        exact Nat.div_mul_le_self _ _
    show Except.map _ (run.convert target raw) = _
    rw [Run.convert_eq_ok target hfits]
    simp only [Except.map, recodeEach, wholeElements, pieces_eq_map, List.flatMap_map, run,
      Run.memberBytes, Run.step, Nat.max_self, Nat.mul_one, Nat.add_zero]
    rfl

theorem recodeEach_append {raw : Bytes} (hwhole : source.size ∣ raw.length) (others : Bytes) :
    recodeEach source target order (raw ++ others) =
      recodeEach source target order raw ++ recodeEach source target order others := by
  simp only [recodeEach, wholeElements_append source.size_pos hwhole, List.flatMap_append]

theorem wholeElements_turnEach {size : Nat} (hsize : 0 < size) (raw : Bytes) :
    wholeElements size (turnEach size raw) = (wholeElements size raw).map List.reverse := by
  rw [turnEach, List.flatMap_def]
  apply wholeElements_flatten_append _ (length_drop_wholeBytes_lt hsize raw)
  intro piece hpiece
  obtain ⟨original, horiginal, rfl⟩ := List.mem_map.mp hpiece
  rw [List.length_reverse, length_of_mem_wholeElements horiginal]

/-- What was converted is cut into the elements that were converted. -/
theorem wholeElements_recodeEach (raw : Bytes) :
    wholeElements target.size (recodeEach source target order raw) =
      (wholeElements source.size raw).map (recode source target order) := by
  rw [← List.append_nil (recodeEach source target order raw), recodeEach, List.flatMap_def]
  apply wholeElements_flatten_append _ target.size_pos
  intro piece hpiece
  obtain ⟨original, -, rfl⟩ := List.mem_map.mp hpiece
  exact length_recode source target order original

/-- What was converted is whole elements, so all of it is turned round. -/
theorem turnEach_recodeEach (raw : Bytes) :
    turnEach target.size (recodeEach source target order raw) =
      (wholeElements source.size raw).flatMap fun piece =>
        (recode source target order piece).reverse := by
  have hrest : (recodeEach source target order raw).length / target.size * target.size =
      (recodeEach source target order raw).length := by
    rw [length_recodeEach, Nat.mul_div_cancel _ target.size_pos]
  rw [turnEach, wholeElements_recodeEach, hrest, List.drop_length, List.append_nil,
    List.flatMap_map]

theorem recodeEach_flip_turnEach (raw : Bytes) :
    recodeEach source target order.flip (turnEach source.size raw) =
      turnEach target.size (recodeEach source target order raw) := by
  rw [turnEach_recodeEach, recodeEach, wholeElements_turnEach source.size_pos, List.flatMap_map]
  simp only [recode_flip_reverse]

/-- **Conversion goes element by element.**  It never fails; it takes every whole element on its
own and drops the rest, so that bytes which end with a whole element may be converted ahead of the
others; elements in the other byte order give elements in the other byte order; and where the type
stays the same, the copy is what decoding and encoding every element gives. -/
theorem convertPacked_elementwise (raw others : Bytes) :
    ∃ packed more copy,
      convertPacked source target order raw = .ok packed ∧
      convertPacked source target order others = .ok more ∧
      convertPacked source source order raw = .ok copy ∧
      packed.length = raw.length / source.size * target.size ∧
      packed = (wholeElements source.size raw).flatMap (recode source target order) ∧
      (source.size ∣ raw.length →
        convertPacked source target order (raw ++ others) = .ok (packed ++ more)) ∧
      convertPacked source target order.flip (turnEach source.size raw) =
        .ok (turnEach target.size packed) ∧
      copy = raw.take (raw.length / source.size * source.size) ∧
      copy = (wholeElements source.size raw).flatMap fun piece =>
        (Element.decode source order piece).encode order := by
  refine ⟨_, _, _, convertPacked_eq_ok source target order raw,
    convertPacked_eq_ok source target order others, convertPacked_eq_ok source source order raw,
    length_recodeEach source target order raw, rfl, ?_, ?_, recodeEach_self source order raw, ?_⟩
  · intro hwhole
    rw [convertPacked_eq_ok, recodeEach_append source target order hwhole]
  · rw [convertPacked_eq_ok, recodeEach_flip_turnEach]
  · unfold recodeEach recode
    simp only [Element.convert_self]

/-- One and a half and a pattern that is not a number, and behind them two and a byte left over. -/
theorem convertPacked_elementwise_bigEndian :
    let raw : Bytes := [0x3f, 0xc0, 0, 0, 0x7f, 0xc0, 0, 1]
    let others : Bytes := [0x40, 0, 0, 0, 9]
    ElementType.f32.size ∣ raw.length ∧
      convertPacked .f32 .u64 .big (raw ++ others) =
        .ok [0, 0, 0, 0, 0, 0, 0, 1, 0, 0, 0, 0, 0, 0, 0, 0, 0, 0, 0, 0, 0, 0, 0, 2] ∧
      convertPacked .f32 .u64 .little (turnEach 4 raw) =
        .ok [1, 0, 0, 0, 0, 0, 0, 0, 0, 0, 0, 0, 0, 0, 0, 0] ∧
      convertPacked .f32 .f32 .big raw = .ok raw := by
  intro raw others
  have hwhole : ElementType.f32.size ∣ raw.length := by decide
  obtain ⟨packed, more, copy, hpacked, hmore, hcopy, -, -, happend, hflip, htake, -⟩ :=
    convertPacked_elementwise .f32 .u64 .big raw others
  have hsteps : recodeEach .f32 .u64 .big raw = [0, 0, 0, 0, 0, 0, 0, 1, 0, 0, 0, 0, 0, 0, 0, 0] ∧
      recodeEach .f32 .u64 .big others = [0, 0, 0, 0, 0, 0, 0, 2] := by
    decide +kernel
  have hcopied : raw.take (raw.length / ElementType.f32.size * ElementType.f32.size) = raw := by
    decide
  cases hpacked.symm.trans (convertPacked_eq_ok .f32 .u64 .big raw)
  cases hmore.symm.trans (convertPacked_eq_ok .f32 .u64 .big others)
  rw [hsteps.1, hsteps.2] at happend
  rw [hsteps.1] at hflip
  exact ⟨hwhole, happend hwhole, hflip, hcopy.trans (congrArg Except.ok (htake.trans hcopied))⟩

end Snapshot
