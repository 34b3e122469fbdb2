import Mathlib.Tactic.SplitIfs
import Snapshot.Text.Utf8

/-!
# UTF-8 has one spelling for each text

`decode_eq_ok_iff` says that a run of bytes reads as a text exactly when it is
what is written for that text.  So no two runs of bytes read as the same text,
and nothing is lost where a name is kept as characters.

Writing and then reading is followed character by character
(`decodeFrom_encodeChar`).  The other direction needs to say what a `Pending`
character stands for: `Pending.Spells p code` relates it to the codes whose last
bytes may still come, and `Pending.tail` are those bytes.  A lead byte makes a
pending character that spells valid codes only, each written with that very lead
byte (`ledBy_of_opening`), and this is where the bounds on the second byte matter.
-/

namespace Snapshot.Utf8

/-! ## Codes and their bytes -/

theorem toNat_valid (c : Char) : c.toNat < 0xd800 ∨ 0xdfff < c.toNat ∧ c.toNat < 0x110000 :=
  c.valid

theorem toNat_ofNat {code : Nat} (hvalid : code.isValidChar) : (Char.ofNat code).toNat = code := by
  rw [Char.ofNat, dif_pos hvalid]
  rfl

theorem toNat_continuation (code : Nat) : (continuation code).toNat = 0x80 + code % 64 := by
  have hlt : 0x80 + code % 64 < 256 := by omega
  simp [continuation, Nat.mod_eq_of_lt hlt]

theorem continuation_eq {byte : UInt8} {code : Nat} (h : byte.toNat = 0x80 + code % 64) :
    continuation code = byte :=
  UInt8.toNat_inj.mp ((toNat_continuation code).trans h.symm)

@[simp] theorem encode_cons (c : Char) (text : List Char) :
    encode (c :: text) = encodeChar c ++ encode text := rfl

/-! ## Pending characters -/

namespace Pending

/-- The code without the bits of its last bytes. -/
def leading : Nat → Nat → Nat
  | 0, code => code
  | bytes + 1, code => leading bytes code / 64

/-- The bytes of a code that are still to come, when `more` of them follow the next one. -/
def tail : Nat → Nat → Bytes
  | 0, code => [continuation code]
  | more + 1, code => continuation (leading (more + 1) code) :: tail more code

/-- The pending character may become the one with the given code. -/
structure Spells (p : Pending) (code : Nat) : Prop where
  bits_eq : leading (p.more + 1) code = p.bits
  low_le : p.low ≤ 0x80 + leading p.more code % 64
  le_high : 0x80 + leading p.more code % 64 ≤ p.high

/-- Only bytes that continue a character are allowed, and only characters are spelled. -/
structure Sound (p : Pending) : Prop where
  low_ge : 0x80 ≤ p.low
  high_le : p.high ≤ 0xbf
  valid : ∀ code, p.Spells code → code.isValidChar

/-- The pending character after one more byte, if it still is one. -/
def next (p : Pending) (more : Nat) (byte : UInt8) : Pending :=
  ⟨p.start, p.seen + 1, more, p.push byte, 0x80, 0xbf⟩

variable {p : Pending} {byte : UInt8} {code : Nat}

theorem toNat_of_allows (hsound : p.Sound) (hallows : p.allows byte = true) :
    0x80 ≤ byte.toNat ∧ byte.toNat ≤ 0xbf := by
  have hlow := hsound.low_ge
  have hhigh := hsound.high_le
  simp only [allows, Bool.and_eq_true, decide_eq_true_eq] at hallows
  omega

/-- What is spelled on after an allowed byte was spelled before it, with that byte. -/
theorem spells_next {more : Nat} (hmore : p.more = more + 1) (hsound : p.Sound)
    (hallows : p.allows byte = true) (hspells : (p.next more byte).Spells code) :
    p.Spells code ∧ continuation (leading (more + 1) code) = byte := by
  obtain ⟨hge, hle⟩ := toNat_of_allows hsound hallows
  simp only [allows, Bool.and_eq_true, decide_eq_true_eq] at hallows
  have hbits : leading (more + 1) code = p.bits * 64 + (byte.toNat - 0x80) := hspells.bits_eq
  have hlast : 0x80 + leading (more + 1) code % 64 = byte.toNat := by omega
  refine ⟨⟨?_, ?_, ?_⟩, continuation_eq hlast.symm⟩
  · rw [hmore]
    show leading (more + 1) code / 64 = p.bits
    omega
  · rw [hmore]
    omega
  · rw [hmore]
    omega

theorem next_sound {more : Nat} (hmore : p.more = more + 1) (hsound : p.Sound)
    (hallows : p.allows byte = true) : (p.next more byte).Sound where
  low_ge := Nat.le_refl _
  high_le := Nat.le_refl _
  valid code hspells := hsound.valid code (spells_next hmore hsound hallows hspells).1

/-- The last byte that is missing completes a code. -/
theorem spells_push (hmore : p.more = 0) (hsound : p.Sound) (hallows : p.allows byte = true) :
    p.Spells (p.push byte) ∧ continuation (p.push byte) = byte := by
  obtain ⟨hge, hle⟩ := toNat_of_allows hsound hallows
  simp only [allows, Bool.and_eq_true, decide_eq_true_eq] at hallows
  have hlast : 0x80 + p.push byte % 64 = byte.toNat := by unfold push; omega
  refine ⟨⟨?_, ?_, ?_⟩, continuation_eq hlast.symm⟩
  · rw [hmore]
    show p.push byte / 64 = p.bits
    unfold push
    omega
  · rw [hmore]
    show p.low ≤ 0x80 + p.push byte % 64
    omega
  · rw [hmore]
    show 0x80 + p.push byte % 64 ≤ p.high
    omega

/-- The next byte of a code that is spelled is allowed. -/
theorem allows_continuation (hspells : p.Spells code) :
    p.allows (continuation (leading p.more code)) = true := by
  simp only [allows, toNat_continuation, Bool.and_eq_true, decide_eq_true_eq]
  exact ⟨hspells.low_le, hspells.le_high⟩

/-- Each byte of a code adds its bits. -/
theorem push_continuation (hspells : p.Spells code) :
    p.push (continuation (leading p.more code)) = leading p.more code := by
  have hbits : leading p.more code / 64 = p.bits := hspells.bits_eq
  unfold push
  rw [toNat_continuation]
  omega

theorem next_spells {more : Nat} (hmore : p.more = more + 1) (hspells : p.Spells code) :
    (p.next more (continuation (leading (more + 1) code))).Spells code := by
  have hpush := push_continuation hspells
  rw [hmore] at hpush
  refine ⟨hpush.symm, Nat.le_add_right _ _, ?_⟩
  show 0x80 + leading more code % 64 ≤ 0xbf
  omega

end Pending

/-! ## Lead bytes -/

section Widths

variable {code : Nat} (hvalid : code.isValidChar)

include hvalid

theorem encodeChar_two (hlow : 0x80 ≤ code) (hhigh : code < 0x800) :
    encodeChar (Char.ofNat code) =
      UInt8.ofNat (0xc0 + code / 64) :: Pending.tail 0 code := by
  have hlarge : ¬ code < 0x80 := by omega
  simp only [encodeChar, toNat_ofNat hvalid, if_neg hlarge, if_pos hhigh, Pending.tail]

theorem encodeChar_three (hlow : 0x800 ≤ code) (hhigh : code < 0x10000) :
    encodeChar (Char.ofNat code) =
      UInt8.ofNat (0xe0 + code / 4096) :: Pending.tail 1 code := by
  have hlarge : ¬ code < 0x80 := by omega
  have hlarger : ¬ code < 0x800 := by omega
  simp only [encodeChar, toNat_ofNat hvalid, if_neg hlarge, if_neg hlarger, if_pos hhigh,
    Pending.tail, Pending.leading]

theorem encodeChar_four (hlow : 0x10000 ≤ code) :
    encodeChar (Char.ofNat code) =
      UInt8.ofNat (0xf0 + code / 262144) :: Pending.tail 2 code := by
  have hlarge : ¬ code < 0x80 := by omega
  have hlarger : ¬ code < 0x800 := by omega
  have hlargest : ¬ code < 0x10000 := by omega
  have htwice : code / 64 / 64 = code / 4096 := Nat.div_div_eq_div_mul code 64 64
  simp only [encodeChar, toNat_ofNat hvalid, if_neg hlarge, if_neg hlarger, if_neg hlargest,
    Pending.tail, Pending.leading, htwice]

end Widths

theorem ofNat_eq {byte : UInt8} {n : Nat} (h : byte.toNat = n) : UInt8.ofNat n = byte := by
  rw [← h, UInt8.ofNat_toNat]

/-- A pending character that is sound, and all of whose codes are written with the byte first. -/
structure Pending.LedBy (p : Pending) (byte : UInt8) : Prop where
  sound : p.Sound
  encode_eq : ∀ code, p.Spells code →
    encodeChar (Char.ofNat code) = byte :: Pending.tail p.more code

section Leads

variable {byte : UInt8} (place start seen : Nat)

theorem opening_two (hge : 0xc2 ≤ byte.toNat) (hlt : byte.toNat < 0xe0) :
    opening place byte = .lead ⟨place, 1, 0, byte.toNat - 0xc0, 0x80, 0xbf⟩ := by
  unfold opening
  dsimp only
  rw [if_neg (by omega), if_neg (by omega), if_pos hlt]

theorem opening_three (hge : 0xe0 ≤ byte.toNat) (hlt : byte.toNat < 0xf0) :
    opening place byte =
      .lead ⟨place, 1, 1, byte.toNat - 0xe0, if byte.toNat = 0xe0 then 0xa0 else 0x80,
        if byte.toNat = 0xed then 0x9f else 0xbf⟩ := by
  unfold opening
  dsimp only
  rw [if_neg (by omega), if_neg (by omega), if_neg (by omega), if_pos hlt]

theorem opening_four (hge : 0xf0 ≤ byte.toNat) (hlt : byte.toNat < 0xf5) :
    opening place byte =
      .lead ⟨place, 1, 2, byte.toNat - 0xf0, if byte.toNat = 0xf0 then 0x90 else 0x80,
        if byte.toNat = 0xf4 then 0x8f else 0xbf⟩ := by
  unfold opening
  dsimp only
  rw [if_neg (by omega), if_neg (by omega), if_neg (by omega), if_neg (by omega), if_pos hlt]

theorem ledBy_two (hge : 0xc2 ≤ byte.toNat) (hlt : byte.toNat < 0xe0) :
    Pending.LedBy ⟨start, seen, 0, byte.toNat - 0xc0, 0x80, 0xbf⟩ byte := by
  have hcode : ∀ code, Pending.Spells ⟨start, seen, 0, byte.toNat - 0xc0, 0x80, 0xbf⟩ code →
      code.isValidChar ∧ 0x80 ≤ code ∧ code < 0x800 ∧ byte.toNat = 0xc0 + code / 64 := by
    intro code h
    rcases h with ⟨hbits, -, -⟩
    simp only [Pending.leading] at hbits
    unfold Nat.isValidChar
    omega
  refine ⟨⟨Nat.le_refl _, Nat.le_refl _, fun code h => (hcode code h).1⟩, fun code h => ?_⟩
  obtain ⟨hvalid, hlow, hhigh, hbyte⟩ := hcode code h
  rw [encodeChar_two hvalid hlow hhigh, ofNat_eq hbyte]

theorem ledBy_three {low high : Nat} (hge : 0xe0 ≤ byte.toNat) (hlt : byte.toNat < 0xf0)
    (hlow : byte.toNat = 0xe0 ∧ low = 0xa0 ∨ byte.toNat ≠ 0xe0 ∧ low = 0x80)
    (hhigh : byte.toNat = 0xed ∧ high = 0x9f ∨ byte.toNat ≠ 0xed ∧ high = 0xbf) :
    Pending.LedBy ⟨start, seen, 1, byte.toNat - 0xe0, low, high⟩ byte := by
  have hcode : ∀ code, Pending.Spells ⟨start, seen, 1, byte.toNat - 0xe0, low, high⟩ code →
      code.isValidChar ∧ 0x800 ≤ code ∧ code < 0x10000 ∧ byte.toNat = 0xe0 + code / 4096 := by
    intro code h
    rcases h with ⟨hbits, hfirst, hlast⟩
    simp only [Pending.leading] at hbits hfirst hlast
    unfold Nat.isValidChar
    omega
  refine ⟨⟨by dsimp only; omega, by dsimp only; omega, fun code h => (hcode code h).1⟩,
    fun code h => ?_⟩
  obtain ⟨hvalid, hge', hlt', hbyte⟩ := hcode code h
  rw [encodeChar_three hvalid hge' hlt', ofNat_eq hbyte]

theorem ledBy_four {low high : Nat} (hge : 0xf0 ≤ byte.toNat) (hlt : byte.toNat < 0xf5)
    (hlow : byte.toNat = 0xf0 ∧ low = 0x90 ∨ byte.toNat ≠ 0xf0 ∧ low = 0x80)
    (hhigh : byte.toNat = 0xf4 ∧ high = 0x8f ∨ byte.toNat ≠ 0xf4 ∧ high = 0xbf) :
    Pending.LedBy ⟨start, seen, 2, byte.toNat - 0xf0, low, high⟩ byte := by
  have hcode : ∀ code, Pending.Spells ⟨start, seen, 2, byte.toNat - 0xf0, low, high⟩ code →
      code.isValidChar ∧ 0x10000 ≤ code ∧ byte.toNat = 0xf0 + code / 262144 := by
    intro code h
    rcases h with ⟨hbits, hfirst, hlast⟩
    simp only [Pending.leading] at hbits hfirst hlast
    unfold Nat.isValidChar
    omega
  refine ⟨⟨by dsimp only; omega, by dsimp only; omega, fun code h => (hcode code h).1⟩,
    fun code h => ?_⟩
  obtain ⟨hvalid, hge', hbyte⟩ := hcode code h
  rw [encodeChar_four hvalid hge', ofNat_eq hbyte]

end Leads

/-- What a lead byte announces is led by it. -/
theorem ledBy_of_opening {place : Nat} {byte : UInt8} {p : Pending}
    (hopening : opening place byte = .lead p) : p.LedBy byte := by
  -- One case for each number of bytes; outside of them no byte leads a character.
  by_cases hsmall : byte.toNat < 0xc2
  · unfold opening at hopening
    dsimp only at hopening
    split_ifs at hopening
  by_cases htwo : byte.toNat < 0xe0
  · rw [opening_two place (by omega) htwo] at hopening
    obtain rfl := Opening.lead.inj hopening
    exact ledBy_two place 1 (by omega) htwo
  by_cases hthree : byte.toNat < 0xf0
  · rw [opening_three place (by omega) hthree] at hopening
    obtain rfl := Opening.lead.inj hopening
    exact ledBy_three place 1 (by omega) hthree (by split_ifs <;> omega) (by split_ifs <;> omega)
  by_cases hfour : byte.toNat < 0xf5
  · rw [opening_four place (by omega) hfour] at hopening
    obtain rfl := Opening.lead.inj hopening
    exact ledBy_four place 1 (by omega) hfour (by split_ifs <;> omega) (by split_ifs <;> omega)
  · unfold opening at hopening
    dsimp only at hopening
    rw [if_neg (by omega), if_neg (by omega), if_neg (by omega), if_neg (by omega),
      if_neg hfour] at hopening
    cases hopening

/-- A character of more than one byte begins with a lead byte that announces its code. -/
theorem encodeChar_eq_lead (place : Nat) {c : Char} (hlarge : 0x80 ≤ c.toNat) :
    ∃ byte p, opening place byte = .lead p ∧ p.Spells c.toNat ∧
      encodeChar c = byte :: Pending.tail p.more c.toNat := by
  have hvalid : c.toNat.isValidChar := c.valid
  have hrange := toNat_valid c
  have hchar : encodeChar c = encodeChar (Char.ofNat c.toNat) := by rw [Char.ofNat_toNat]
  by_cases htwo : c.toNat < 0x800
  · have hbyte : (UInt8.ofNat (0xc0 + c.toNat / 64)).toNat = 0xc0 + c.toNat / 64 :=
      UInt8.toNat_ofNat_of_lt' (by unfold UInt8.size; omega)
    refine ⟨UInt8.ofNat (0xc0 + c.toNat / 64), _, opening_two place (by omega) (by omega),
      ⟨?_, ?_, ?_⟩, hchar.trans (encodeChar_two hvalid hlarge htwo)⟩ <;>
      simp only [hbyte, Pending.leading] <;> omega
  by_cases hthree : c.toNat < 0x10000
  · have hbyte : (UInt8.ofNat (0xe0 + c.toNat / 4096)).toNat = 0xe0 + c.toNat / 4096 :=
      UInt8.toNat_ofNat_of_lt' (by unfold UInt8.size; omega)
    refine ⟨UInt8.ofNat (0xe0 + c.toNat / 4096), _, opening_three place (by omega)
      (by omega), ⟨?_, ?_, ?_⟩, hchar.trans (encodeChar_three hvalid (by omega) hthree)⟩ <;>
      simp only [hbyte, Pending.leading] <;> (try split_ifs) <;> omega
  · have hbyte : (UInt8.ofNat (0xf0 + c.toNat / 262144)).toNat = 0xf0 + c.toNat / 262144 :=
      UInt8.toNat_ofNat_of_lt' (by unfold UInt8.size; omega)
    refine ⟨UInt8.ofNat (0xf0 + c.toNat / 262144), _, opening_four place (by omega)
      (by omega), ⟨?_, ?_, ?_⟩, hchar.trans (encodeChar_four hvalid (by omega))⟩ <;>
      simp only [hbyte, Pending.leading] <;> (try split_ifs) <;> omega

/-! ## Reading what was written -/

/-- The bytes that a pending character waits for complete it. -/
theorem decodeFrom_tail {more : Nat} {p : Pending} {code : Nat} (hmore : p.more = more)
    (hspells : p.Spells code) {rest : Bytes} {text : List Char}
    (hrest : ∀ place, decodeFrom place none rest = .ok text) (place : Nat) :
    decodeFrom place (some p) (Pending.tail more code ++ rest) =
      .ok (Char.ofNat code :: text) := by
  induction more generalizing place p with
  | zero =>
      have hallows := Pending.allows_continuation hspells
      have hpush := Pending.push_continuation hspells
      rw [hmore, Pending.leading] at hallows hpush
      simp only [Pending.tail, List.cons_append, List.nil_append, decodeFrom, if_pos hallows, hmore,
        hpush, hrest]
      rfl
  | succ more ih =>
      have hallows := Pending.allows_continuation hspells
      rw [hmore] at hallows
      simp only [Pending.tail, List.cons_append, decodeFrom, if_pos hallows, hmore]
      exact ih rfl (Pending.next_spells hmore hspells) (place + 1)

theorem decodeFrom_encodeChar {c : Char} {rest : Bytes} {text : List Char}
    (hrest : ∀ place, decodeFrom place none rest = .ok text) (place : Nat) :
    decodeFrom place none (encodeChar c ++ rest) = .ok (c :: text) := by
  by_cases hsmall : c.toNat < 0x80
  · have hbyte : (UInt8.ofNat c.toNat).toNat = c.toNat :=
      UInt8.toNat_ofNat_of_lt' (by unfold UInt8.size; omega)
    have hopening : opening place (UInt8.ofNat c.toNat) = .char c := by
      unfold opening
      simp only [hbyte, if_pos hsmall, Char.ofNat_toNat]
    simp only [encodeChar, if_pos hsmall, List.cons_append, List.nil_append, decodeFrom, hopening,
      hrest]
    rfl
  · obtain ⟨byte, p, hopening, hspells, hbytes⟩ := encodeChar_eq_lead place (Nat.le_of_not_lt hsmall)
    rw [hbytes, List.cons_append, decodeFrom, hopening]
    simpa using decodeFrom_tail rfl hspells hrest (place + 1)

theorem decodeFrom_encode (text : List Char) (place : Nat) :
    decodeFrom place none (encode text) = .ok text := by
  induction text generalizing place with
  | nil => rfl
  | cons c text ih =>
      rw [encode_cons]
      exact decodeFrom_encodeChar ih place

/-! ## Writing what was read -/

private theorem opening_char {place : Nat} {byte : UInt8} {c : Char}
    (hopening : opening place byte = .char c) : encodeChar c = [byte] := by
  unfold opening at hopening
  dsimp only at hopening
  split_ifs at hopening with hsmall
  obtain rfl := Opening.char.inj hopening
  have hvalid : byte.toNat.isValidChar := Or.inl (by omega)
  simp only [encodeChar, toNat_ofNat hvalid, if_pos hsmall, UInt8.ofNat_toNat]

/-- `Except.map` succeeds only where its argument does. -/
private theorem map_eq_ok {ε α β : Type} {f : α → β} {x : Except ε α} {b : β}
    (h : f <$> x = .ok b) : ∃ a, x = .ok a ∧ f a = b := by
  cases x with
  | error e => cases h
  | ok a => exact ⟨a, rfl, Except.ok.inj h⟩

/-- What is read is what is written for it, between two characters and inside one. -/
private theorem eq_encode_of_decodeFrom_aux (raw : Bytes) :
    (∀ place text, decodeFrom place none raw = .ok text → raw = encode text) ∧
      ∀ place (p : Pending) text, p.Sound → decodeFrom place (some p) raw = .ok text →
        ∃ code rest, p.Spells code ∧ text = Char.ofNat code :: rest ∧
          raw = Pending.tail p.more code ++ encode rest := by
  -- Both statements go through the induction together: a lead byte leads from the first to the
  -- second, the last byte of a character back.
  induction raw with
  | nil =>
      refine ⟨fun place text h => ?_, fun place p text _ h => ?_⟩
      · obtain rfl := Except.ok.inj h
        rfl
      · cases h
  | cons byte raw ih =>
      obtain ⟨ihBetween, ihInside⟩ := ih
      constructor
      · intro place text h
        rw [decodeFrom] at h
        cases hopening : opening place byte with
        | char c =>
            rw [hopening] at h
            obtain ⟨rest, hrest, rfl⟩ := map_eq_ok h
            rw [encode_cons, opening_char hopening, ← ihBetween _ _ hrest, List.singleton_append]
        | lead p =>
            rw [hopening] at h
            have hled := ledBy_of_opening hopening
            obtain ⟨code, rest, hspells, rfl, rfl⟩ := ihInside _ p text hled.sound h
            rw [encode_cons, hled.encode_eq code hspells, List.cons_append]
        | bad =>
            rw [hopening] at h
            cases h
      · intro place p text hsound h
        rw [decodeFrom] at h
        by_cases hallows : p.allows byte = true
        · rw [if_pos hallows] at h
          cases hmore : p.more with
          | zero =>
              rw [hmore] at h
              obtain ⟨rest, hrest, rfl⟩ := map_eq_ok h
              obtain ⟨hspells, hbyte⟩ := Pending.spells_push hmore hsound hallows
              refine ⟨p.push byte, rest, hspells, rfl, ?_⟩
              rw [Pending.tail, hbyte, ← ihBetween _ _ hrest, List.singleton_append]
          | succ more =>
              rw [hmore] at h
              obtain ⟨code, rest, hspells, rfl, rfl⟩ :=
                ihInside _ _ text (Pending.next_sound hmore hsound hallows) h
              obtain ⟨hbefore, hbyte⟩ := Pending.spells_next hmore hsound hallows hspells
              refine ⟨code, rest, hbefore, rfl, ?_⟩
              rw [Pending.tail, hbyte, List.cons_append]
              rfl
        · rw [if_neg hallows] at h
          cases h

/-- **Reading accepts what writing produces and nothing else.** -/
theorem decode_eq_ok_iff {raw : Bytes} {text : List Char} :
    decode raw = .ok text ↔ raw = encode text := by
  constructor
  · exact (eq_encode_of_decodeFrom_aux raw).1 0 text
  · intro heq
    rcases heq with rfl
    exact decodeFrom_encode text 0

end Snapshot.Utf8
