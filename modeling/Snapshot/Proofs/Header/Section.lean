import Mathlib.Data.List.Basic
import Snapshot.Proofs.Header.Decoder
import Snapshot.Proofs.Text.Utf8

/-!
# The header section is decoded exactly

`decodeSection_decodes` describes the decoder of the whole section: it yields the
sections that are `Section.Proper`, each from its encoding, and claims as many
bytes as the encoding has.

What a section has to keep so that it can be stored is listed in
`Section.Proper`.  Two of its entries differ between the versions.  The first
version has no place for a format code and for most of the geometry
(`Preamble.Suits`), and its widths follow from the names (`Section.WidthsSuit`).
-/

namespace Snapshot

open Decoder

/-! ## The preamble -/

/-- The preamble holds nothing that the version cannot store. -/
def Preamble.Suits (p : Preamble) (version : UInt32) : Prop :=
  version = 1 →
    p.format = 0 ∧ p.geometry.origin = Triple.replicate 0 ∧ p.geometry.totalSpan = p.geometry.span
deriving Decidable

theorem Preamble.length_words (p : Preamble) (version : UInt32) :
    (p.words version).length = Preamble.wordCount version := by
  unfold Preamble.words Preamble.wordCount
  split_ifs <;> rfl

theorem Preamble.ofWords_words {p : Preamble} {version : UInt32} (hsuits : p.Suits version) :
    Preamble.ofWords version (p.words version) = p := by
  obtain ⟨format, count, total, ⟨span, origin, totalSpan⟩, firstId, cosmology⟩ := p
  by_cases hversion : version = 1
  · obtain ⟨hformat, horigin, htotal⟩ := hsuits hversion
    dsimp only at hformat horigin htotal
    subst hformat horigin htotal
    simp only [Preamble.ofWords, Preamble.words, if_pos hversion]
    simp [Triple.ofWords, Triple.words, Triple.toList, Cosmology.ofWords, Cosmology.words]
  · simp only [Preamble.ofWords, Preamble.words, if_neg hversion]
    simp [Triple.ofWords, Triple.words, Triple.toList, Cosmology.ofWords, Cosmology.words]

theorem map_range_getD {α : Type} (members : List α) (default : α) :
    (List.range members.length).map (fun i => members.getD i default) = members := by
  apply List.ext_getElem
  · simp
  · intro i hi hi'
    simp [List.getElem?_eq_getElem hi']

theorem Preamble.words_ofWords {version : UInt32} {words : List UInt64}
    (hlength : words.length = Preamble.wordCount version) :
    (Preamble.ofWords version words).words version = words := by
  have hlist := map_range_getD words 0
  rw [hlength] at hlist
  unfold Preamble.wordCount at hlist
  by_cases hversion : version = 1
  · rw [if_pos hversion] at hlist
    simp only [Preamble.ofWords, Preamble.words, if_pos hversion]
    exact hlist
  · rw [if_neg hversion] at hlist
    simp only [Preamble.ofWords, Preamble.words, if_neg hversion]
    exact hlist

theorem Preamble.ofWords_suits (version : UInt32) (words : List UInt64) :
    (Preamble.ofWords version words).Suits version := by
  intro hversion
  simp [Preamble.ofWords, hversion]

/-- The words of the preamble behind a claim for all of them. -/
theorem decodePreamble_decodes (order : ByteOrder) (version : UInt32) :
    (decodePreamble order version).Decodes
      (fun p => (version = 1 ∨ version = 2) ∧ p.Suits version)
      (fun p => (p.words version).flatMap fun word => order.encode 8 word.toNat)
      fun _ => 8 * Preamble.wordCount version := by
  unfold decodePreamble
  by_cases hversion : version = 1 ∨ version = 2
  · rw [if_pos hversion]
    refine Decodes.afterClaim _ (((Decodes.word order 8).times _).bind
      (fun words _ => Decodes.pure _) (fun p => ?_) ?_ fun _ _ _ _ => rfl)
    · constructor
      · intro h
        rcases h with ⟨-, hsuits⟩
        refine ⟨(p.words version).map UInt64.toNat, ⟨?_, ?_⟩, ?_⟩
        · rw [List.length_map, p.length_words]
        · rw [List.forall_mem_map]
          exact fun word _ => word.toNat_lt
        · simp [List.map_map, Function.comp_def, Preamble.ofWords_words hsuits]
      · intro h
        rcases h with ⟨words, -, rfl⟩
        exact ⟨hversion, Preamble.ofWords_suits _ _⟩
    · intro words p h heq
      rcases h with ⟨hlength, hbound⟩
      rcases heq with rfl
      rw [Preamble.words_ofWords (by simpa using hlength), List.flatMap_map, List.append_nil]
      apply List.flatMap_congr
      intro word hword
      rw [UInt64.toNat_ofNat_of_lt' (hbound word hword)]
  · rw [if_neg hversion]
    exact Decodes.throw _ fun p h => hversion h.1

/-! ## The identity and the counts -/

/-- What the stored magic word looks like when it is read with the least significant byte first. -/
def seenMagic : ByteOrder → Nat
  | .little => magic.toNat
  | .big => swappedMagic.toNat

theorem decode_encode_magic (order : ByteOrder) :
    ByteOrder.little.decode (order.encode 4 magic.toNat) = seenMagic order := by
  cases order <;> decide

theorem seenMagic_injective {order other : ByteOrder} (h : seenMagic order = seenMagic other) :
    order = other := by
  revert h
  cases order <;> cases other <;> decide

theorem eq_encode_magic_iff {text : Bytes} (hlength : text.length = 4) (order : ByteOrder) :
    text = order.encode 4 magic.toNat ↔ ByteOrder.little.decode text = seenMagic order := by
  constructor
  · intro heq
    rcases heq with rfl
    exact decode_encode_magic order
  · intro h
    rw [← decode_encode_magic order] at h
    -- Four bytes that read as the same word are the same bytes.
    have hencode := congrArg (ByteOrder.little.encode 4) h
    have hself := ByteOrder.little.encode_decode text
    have hother := ByteOrder.little.encode_decode (order.encode 4 magic.toNat)
    rw [hlength] at hself
    rw [ByteOrder.length_encode] at hother
    rwa [hself, hother] at hencode

theorem decodeVersion_decodes (order : ByteOrder) :
    (word order 4 >>= fun version => pure (order, UInt32.ofNat version)).Decodes
      (fun identity : ByteOrder × UInt32 => identity.1 = order)
      (fun identity => identity.1.encode 4 identity.2.toNat) fun _ => 0 := by
  refine (Decodes.word order 4).bind (fun word _ => Decodes.pure _) ?_ ?_ fun _ _ _ _ => rfl
  · rintro ⟨found, version⟩
    constructor
    · intro heq
      rcases heq with rfl
      exact ⟨version.toNat, version.toNat_lt, by simp⟩
    · intro h
      rcases h with ⟨word, -, h⟩
      exact congrArg Prod.fst h
  · intro word identity hword heq
    rcases heq with rfl
    show _ = order.encode 4 word ++ []
    rw [List.append_nil, UInt32.toNat_ofNat_of_lt' hword]

theorem decodeIdentity_decodes :
    decodeIdentity.Decodes (fun _ => True)
      (fun identity => identity.1.encode 4 magic.toNat ++ identity.1.encode 4 identity.2.toNat)
      fun _ => 8 := by
  -- What follows the magic word, by the bytes of that word.
  have hsecond : ∀ text : Bytes, text.length = 4 →
      Decodes
        (do
          let found := ByteOrder.little.decode text
          let order ←
            if found = magic.toNat then pure ByteOrder.little
            else if found = swappedMagic.toNat then pure ByteOrder.big
            else throw (.badMagic (UInt32.ofNat found))
          let version ← word order 4
          pure (order, UInt32.ofNat version))
        (fun identity : ByteOrder × UInt32 => text = identity.1.encode 4 magic.toNat)
        (fun identity => identity.1.encode 4 identity.2.toNat) fun _ => 0 := by
    intro text hlength
    dsimp only
    simp only [eq_encode_magic_iff hlength]
    have hknown : ∀ order, ByteOrder.little.decode text = seenMagic order →
        (word order 4 >>= fun version => pure (order, UInt32.ofNat version)).Decodes
          (fun identity : ByteOrder × UInt32 => ByteOrder.little.decode text = seenMagic identity.1)
          (fun identity => identity.1.encode 4 identity.2.toNat) fun _ => 0 := by
      intro order hseen
      refine (decodeVersion_decodes order).congr (fun identity => ?_) (fun _ _ => rfl) fun _ _ => rfl
      rw [hseen]
      exact ⟨fun h => (seenMagic_injective h).symm, fun h => h ▸ rfl⟩
    split_ifs with hlittle hbig
    · exact hknown .little hlittle
    · exact hknown .big hbig
    · refine Decodes.throw _ fun identity h => ?_
      cases hfirst : identity.1 with
      | little => exact hlittle (hfirst ▸ h :)
      | big => exact hbig (hfirst ▸ h :)
  have hbody := (Decodes.bytes 4).bindKey
    (fun identity : ByteOrder × UInt32 => identity.1.encode 4 magic.toNat) hsecond
    fun _ _ _ h => h.symm
  refine Decodes.afterClaim 8 (hbody.congr (fun identity => ?_) (fun _ _ => rfl) fun _ _ => rfl)
  simp

/-- The counts of a file that may be one part of a simulation. -/
def Preamble.Counted (p : Preamble) : Prop := 0 ≤ p.count ∧ p.count ≤ p.total
deriving Decidable

theorem checkCounts_decodes (p : Preamble) :
    (checkCounts p).Decodes (fun _ => p.Counted) (fun _ => []) fun _ => 0 := by
  unfold checkCounts
  split_ifs with hcounts
  · refine Decodes.throw _ fun _ h => ?_
    rcases hcounts with hneg | hless
    · exact Int64.not_lt.mpr h.1 hneg
    · exact Int64.not_lt.mpr h.2 hless
  · rw [not_or, Int64.not_lt, Int64.not_lt] at hcounts
    exact (Decodes.pure ()).congr (fun _ => iff_of_true hcounts rfl) (fun _ _ => rfl) fun _ _ => rfl

theorem decodeNative_decodes (order : ByteOrder) :
    (decodeNative order).Decodes (fun raw => raw.length < wordBound 4)
      (fun raw => order.encode 4 raw.length ++ raw) fun raw => 4 + raw.length := by
  refine Decodes.afterClaim 4 ((Decodes.word order 4).bind
    (fun length _ => Decodes.afterClaim length (Decodes.bytes length)) (fun raw => ?_) ?_ ?_)
  · simp
  · intro length raw _ heq
    rcases heq with rfl
    rfl
  · intro length raw _ heq
    rcases heq with rfl
    simp

/-! ## The variable table -/

theorem decodeName_eq_ok_iff {earlier : List String} {raw : Bytes} {name : String} :
    decodeName earlier raw = .ok name ↔
      raw = nameBytes name ∧ name ≠ "" ∧ name ∉ earlier := by
  have hread : raw = nameBytes name ↔ Utf8.decode raw = .ok name.toList :=
    Utf8.decode_eq_ok_iff.symm
  rw [hread]
  unfold decodeName
  cases Utf8.decode raw with
  | error error => simp
  | ok text =>
      have hname : String.ofList text = name ↔ text = name.toList := by
        rw [← String.toList_inj, String.toList_ofList]
      have hempty : text = [] ↔ String.ofList text = "" := by
        rw [← String.toList_inj, String.toList_ofList, String.toList_empty]
      simp only [Except.ok.injEq, ← hname, hempty]
      generalize String.ofList text = found
      split_ifs with hnone hknown
      · constructor
        · intro h
          cases h
        · intro h
          rcases h with ⟨rfl, h, -⟩
          exact absurd hnone h
      · constructor
        · intro h
          cases h
        · intro h
          rcases h with ⟨rfl, -, h⟩
          exact absurd hknown h
      · constructor
        · intro h
          cases h
          exact ⟨rfl, hnone, hknown⟩
        · intro h
          rcases h with ⟨rfl, -⟩
          rfl

theorem decodeNames_decodes (earlier : List String) (lengths : List Nat) :
    (decodeNames earlier lengths).Decodes
      (fun names => names.map (fun name => (nameBytes name).length) = lengths ∧
        (∀ name ∈ names, name ≠ "") ∧ names.Nodup ∧ ∀ name ∈ names, name ∉ earlier)
      (fun names => names.flatMap nameBytes) fun _ => 0 := by
  induction lengths generalizing earlier with
  | nil =>
      refine (Decodes.pure []).congr (fun names => ?_) ?_ fun _ _ => rfl
      · simp only [List.map_eq_nil_iff]
        constructor
        · exact fun h => h.1
        · intro heq
          rcases heq with rfl
          simp
      · intro names h
        rcases h with ⟨hnames, -⟩
        rw [List.map_eq_nil_iff.mp hnames]
        rfl
  | cons length lengths ih =>
      -- The names that follow are checked against this one as well.
      have hname : ∀ raw, (liftM (decodeName earlier raw) >>= fun name =>
          decodeNames (name :: earlier) lengths >>= fun names => pure (name :: names)).Decodes
          (fun all => ∃ name, (raw = nameBytes name ∧ name ≠ "" ∧ name ∉ earlier) ∧
            ∃ names, (names.map (fun name => (nameBytes name).length) = lengths ∧
              (∀ other ∈ names, other ≠ "") ∧ names.Nodup ∧ ∀ other ∈ names, other ∉ name :: earlier) ∧
                all = name :: names)
          (fun all => all.tail.flatMap nameBytes) fun _ => 0 :=
        fun raw => (Decodes.lift fun _ => decodeName_eq_ok_iff).bind
          (fun name _ => (ih (name :: earlier)).cons name) (fun _ => Iff.rfl) (fun _ _ _ _ => rfl)
          fun _ _ _ _ => rfl
      refine (Decodes.bytes length).bind (fun raw _ => hname raw) (fun all => ?_) ?_
        fun _ _ _ _ => rfl
      · constructor
        · intro h
          rcases h with ⟨hlengths, hnamed, hnodup, hfresh⟩
          obtain ⟨name, names, rfl, hlength, hlengths⟩ := List.map_eq_cons_iff.mp hlengths
          rw [List.forall_mem_cons] at hnamed hfresh
          rw [List.nodup_cons] at hnodup
          refine ⟨nameBytes name, hlength, name, ⟨rfl, hnamed.1, hfresh.1⟩, names,
            ⟨hlengths, hnamed.2, hnodup.2, fun other hmem hknown => ?_⟩, rfl⟩
          rcases List.mem_cons.mp hknown with rfl | hearlier
          · exact hnodup.1 hmem
          · exact hfresh.2 other hmem hearlier
        · rintro ⟨raw, hlength, name, ⟨rfl, hname, hnew⟩, names,
            ⟨hlengths, hnamed, hnodup, hfresh⟩, rfl⟩
          refine ⟨by rw [List.map_cons, hlengths, hlength], List.forall_mem_cons.mpr ⟨hname, hnamed⟩,
            List.nodup_cons.mpr ⟨fun hmem => hfresh name hmem List.mem_cons_self, hnodup⟩,
            List.forall_mem_cons.mpr ⟨hnew, fun other hmem hearlier => ?_⟩⟩
          exact hfresh other hmem (List.mem_cons_of_mem _ hearlier)
      · intro raw all _ h
        rcases h with ⟨name, ⟨rfl, -⟩, names, -, rfl⟩
        rfl

theorem tagBytes_injective {type other : ElementType} (h : type.tagBytes = other.tagBytes) :
    type = other := by
  revert h
  cases type <;> cases other <;> decide

theorem length_tagBytes (type : ElementType) : type.tagBytes.length = 3 := by
  cases type <;> decide

theorem mem_all (type : ElementType) : type ∈ ElementType.all := by
  cases type <;> decide

theorem decodeTag_eq_ok_iff {raw : Bytes} {type : ElementType} :
    decodeTag raw = .ok type ↔ raw = type.tagBytes := by
  unfold decodeTag
  cases hfind : ElementType.all.find? fun other => other.tagBytes = raw with
  | none =>
      rw [List.find?_eq_none] at hfind
      have hother := hfind type (mem_all type)
      simp only [decide_eq_true_eq] at hother
      simpa using Ne.symm hother
  | some found =>
      have hraw := List.find?_some hfind
      simp only [decide_eq_true_eq] at hraw
      rw [← hraw, Except.ok.injEq]
      exact ⟨fun h => h ▸ rfl, tagBytes_injective⟩

theorem decodeType_decodes :
    decodeType.Decodes (fun _ => True) ElementType.tagBytes fun _ => 0 := by
  refine (Decodes.bytes 3).bind (fun raw _ => Decodes.lift fun type => decodeTag_eq_ok_iff)
    (fun type => ?_) ?_ fun _ _ _ _ => rfl
  · simp [length_tagBytes]
  · intro raw type _ heq
    rcases heq with rfl
    exact (List.append_nil _).symm

/-- The widths of the columns with the given names. -/
def Section.WidthsSuit (version : UInt32) (names : List String) (widths : List UInt8) : Prop :=
  if Section.storesWidths version then
    widths.length = names.length ∧ ∀ width ∈ widths, width = 1 ∨ width = 3
  else widths = Section.impliedWidths names
deriving Decidable

theorem checkWidths_eq_ok_iff {names : List String} {widths : List UInt8}
    (hlength : widths.length = names.length) :
    checkWidths names widths = .ok () ↔ ∀ width ∈ widths, width = 1 ∨ width = 3 := by
  induction names generalizing widths with
  | nil => simp [checkWidths, List.length_eq_zero_iff.mp hlength]
  | cons name names ih =>
      obtain ⟨width, widths, rfl⟩ := List.exists_cons_of_length_eq_add_one hlength
      rw [checkWidths, List.forall_mem_cons, ← ih (Nat.succ.inj hlength)]
      split_ifs with hwidth
      · simp [hwidth]
      · rw [not_and_or, not_not, not_not] at hwidth
        simp [hwidth]

theorem decodeWidths_decodes (version : UInt32) (names : List String) :
    (decodeWidths version names).Decodes (Section.WidthsSuit version names)
      (fun widths => if Section.storesWidths version then widths else [])
      fun _ => if Section.storesWidths version then names.length else 0 := by
  unfold decodeWidths Section.WidthsSuit
  split_ifs with hversion
  · have hchecked : ∀ widths : List UInt8, widths.length = names.length →
        (liftM (checkWidths names widths) >>= fun _ => pure widths : Decoder (List UInt8)).Decodes
          (fun found => (∀ width ∈ found, width = 1 ∨ width = 3) ∧ found = widths) (fun _ => [])
          fun _ => 0 := by
      intro widths hlength
      refine (Decodes.lift fun _ => checkWidths_eq_ok_iff hlength).bind
        (fun _ _ => Decodes.pure widths) (fun found => ?_) (fun _ _ _ _ => rfl) fun _ _ _ _ => rfl
      constructor
      · intro h
        rcases h with ⟨hwidths, rfl⟩
        exact ⟨(), hwidths, rfl⟩
      · intro h
        rcases h with ⟨-, hwidths, rfl⟩
        exact ⟨hwidths, rfl⟩
    refine Decodes.afterClaim _ ((Decodes.bytes _).bind hchecked (fun widths => ?_) ?_
      fun _ _ _ _ => rfl)
    · constructor
      · intro h
        rcases h with ⟨hlength, hwidths⟩
        exact ⟨widths, hlength, hwidths, rfl⟩
      · intro h
        rcases h with ⟨found, hlength, hwidths, rfl⟩
        exact ⟨hlength, hwidths⟩
    · intro found widths _ h
      rcases h with ⟨-, rfl⟩
      exact (List.append_nil _).symm
  · exact (Decodes.pure _).congr (fun _ => Iff.rfl) (fun _ _ => rfl) fun _ _ => rfl

/-! ## The whole section -/

namespace Section

/-- The section can be stored. -/
structure Proper (s : Section) : Prop where
  version_known : s.version = 1 ∨ s.version = 2
  preamble_suits : s.preamble.Suits s.version
  counted : s.preamble.Counted
  native_short : s.native.length < wordBound 4
  names_few : s.names.length < wordBound 4
  names_short : ∀ name ∈ s.names, (nameBytes name).length < wordBound 4
  names_ne_empty : ∀ name ∈ s.names, name ≠ ""
  names_nodup : s.names.Nodup
  types_length : s.types.length = s.names.length
  widths_suit : WidthsSuit s.version s.names s.widths

end Section

namespace Section

/-- The parts of a section that can be stored, by their sizes. -/
theorem Proper.length_encode {s : Section} (h : s.Proper) :
    s.encode.length = 8 + 8 * Preamble.wordCount s.version + (4 + s.native.length) + 4 +
      4 * s.names.length + totalSize (s.names.map fun name => (nameBytes name).length) +
      3 * s.names.length + if storesWidths s.version then s.names.length else 0 := by
  have hwords : ∀ words : List UInt64,
      (words.flatMap fun word => s.order.encode 8 word.toNat).length = 8 * words.length := by
    intro words
    simp [List.length_flatMap, Nat.mul_comm]
  have hlengths : (s.names.flatMap fun name => s.order.encode 4 (nameBytes name).length).length =
      4 * s.names.length := by
    simp [List.length_flatMap, Nat.mul_comm]
  have hnames : (s.names.flatMap nameBytes).length =
      totalSize (s.names.map fun name => (nameBytes name).length) := List.length_flatMap
  have htypes : (s.types.flatMap ElementType.tagBytes).length = 3 * s.names.length := by
    simp [List.length_flatMap, length_tagBytes, h.types_length, Nat.mul_comm]
  have hwidths : (if storesWidths s.version then s.widths else []).length =
      if storesWidths s.version then s.names.length else 0 := by
    have hsuit := h.widths_suit
    unfold WidthsSuit at hsuit
    split_ifs at hsuit ⊢ with hversion
    · exact hsuit.1
    · rfl
  simp only [encode, word, List.length_append, ByteOrder.length_encode, hwords, hlengths, hnames,
    htypes, hwidths, Preamble.length_words]
  omega

end Section

theorem decodeSection_decodes :
    decodeSection.Decodes Section.Proper Section.encode fun s => s.encode.length := by
  -- The parts in their order; each is seen in the section that comes out at the end.
  refine (decodeIdentity_decodes.bindKey (fun s : Section => (s.order, s.version))
    (fun identity _ => (decodePreamble_decodes identity.1 identity.2).bindKey Section.preamble
      (fun preamble _ => (checkCounts_decodes preamble).bindKey (fun _ => ())
        (fun _ _ => (decodeNative_decodes identity.1).bindKey Section.native
          (fun native _ => Decodes.afterClaim 4 ((Decodes.word identity.1 4).bindKey
            (fun s => s.names.length)
            (fun columns _ => Decodes.afterClaim _ (((Decodes.word identity.1 4).times columns).bindKey
              (fun s => s.names.map fun name => (nameBytes name).length)
              (fun lengths _ => Decodes.afterClaim _ ((decodeNames_decodes [] lengths).bindKey
                Section.names
                (fun names _ => Decodes.afterClaim _ ((decodeType_decodes.times columns).bindKey
                  Section.types
                  (fun types _ => (decodeWidths_decodes identity.2 names).bindKey Section.widths
                    (fun widths _ => Decodes.pure _)
                    fun _ _ _ h => congrArg Section.widths h)
                  fun _ _ _ h => congrArg Section.types h.2))
                fun _ _ _ h => congrArg Section.names h.2.2))
              fun _ _ _ h => h.1.1))
            fun _ _ _ h => by simpa using h.1.1))
          fun _ _ _ h => congrArg Section.native h.2.2.2.2.2)
        fun _ _ _ _ => rfl)
      fun _ _ _ h => congrArg Section.preamble h.2.2.2.2.2.2.2)
    fun _ _ _ h => congrArg (fun s : Section => (s.order, s.version)) h.2.2.2.2.2.2.2.2).congr
    (fun s => ?_) (fun s h => ?_) fun s h => ?_
  · constructor
    · intro h
      exact ⟨trivial, ⟨h.version_known, h.preamble_suits⟩, h.counted, h.native_short, h.names_few,
        ⟨List.length_map _, List.forall_mem_map.mpr h.names_short⟩,
        ⟨rfl, h.names_ne_empty, h.names_nodup, fun _ _ => List.not_mem_nil⟩,
        ⟨h.types_length, fun _ _ => trivial⟩, h.widths_suit, rfl⟩
    · rintro ⟨-, ⟨hversion, hsuits⟩, hcounted, hnative, hfew, ⟨-, hshort⟩, ⟨-, hnamed, hnodup, -⟩,
        ⟨htypes, -⟩, hwidths, -⟩
      exact ⟨hversion, hsuits, hcounted, hnative, hfew, List.forall_mem_map.mp hshort, hnamed, hnodup,
        htypes, hwidths⟩
  · simp only [Section.encode, Section.word, List.flatMap_map, List.append_assoc, List.nil_append,
      List.append_nil]
  · rw [h.length_encode]
    dsimp only
    omega

end Snapshot
