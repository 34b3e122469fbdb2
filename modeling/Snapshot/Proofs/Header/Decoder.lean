import Mathlib.Tactic.SplitIfs
import Snapshot.Header.Decode

/-!
# What a decoder accepts

A decoder is described by the values that it can yield, the bytes that each of
them is read from, and the number of bytes that it claims on the way.
`Decoder.Decodes` says that this description is exact: the decoder succeeds with
a value if and only if the value is valid, its bytes stand at the cursor and the
claims stay within the stated length.  One statement therefore serves both
directions, that what was written is read and that what was read was written.

The descriptions compose.  `Decodes.bind` joins two parts, where the value of the
first part can be told from the value of the whole (`key`); the form of the whole
is then the forms of its parts one after the other.
-/

namespace Snapshot

open Decoder

/-- What is left of a cursor when `text` was read and `need` bytes were claimed. -/
structure Cursor.Passes (before : Cursor) (text : Bytes) (need : Nat) (after : Cursor) : Prop where
  rest_eq : before.rest = text ++ after.rest
  claimed_eq : after.claimed = before.claimed + need
  limit_eq : after.limit = before.limit
  fits : after.claimed ≤ after.limit

namespace Cursor.Passes

variable {before middle after : Cursor} {first second : Bytes} {need more : Nat}

theorem nothing (hfits : before.claimed ≤ before.limit) : before.Passes [] 0 before :=
  ⟨rfl, rfl, rfl, hfits⟩

theorem eq_of_nothing (h : before.Passes [] 0 after) : before = after := by
  obtain ⟨hrest, hclaimed, hlimit, -⟩ := h
  cases before
  cases after
  simp_all

theorem join (hfirst : before.Passes first need middle) (hsecond : middle.Passes second more after) :
    before.Passes (first ++ second) (need + more) after where
  rest_eq := by rw [hfirst.rest_eq, hsecond.rest_eq, List.append_assoc]
  claimed_eq := by rw [hsecond.claimed_eq, hfirst.claimed_eq, Nat.add_assoc]
  limit_eq := hsecond.limit_eq.trans hfirst.limit_eq
  fits := hsecond.fits

/-- Between two parts there is a cursor. -/
theorem part (h : before.Passes (first ++ second) (need + more) after) :
    ∃ middle, before.Passes first need middle ∧ middle.Passes second more after := by
  have hclaimed := h.claimed_eq
  have hlimit := h.limit_eq
  have hfits := h.fits
  -- The limit was met at the end, and claims only grow.
  refine ⟨⟨second ++ after.rest, before.claimed + need, before.limit⟩, ⟨?_, rfl, rfl, ?_⟩,
    ⟨rfl, ?_, hlimit, hfits⟩⟩
  · rw [h.rest_eq, List.append_assoc]
  · show before.claimed + need ≤ before.limit
    omega
  · show after.claimed = before.claimed + need + more
    omega

end Cursor.Passes

namespace Decoder

variable {α β : Type}

/-- The decoder yields the valid values, each from its form and with its claims. -/
def Decodes (decoder : Decoder α) (valid : α → Prop) (form : α → Bytes) (need : α → Nat) : Prop :=
  ∀ before : Cursor, before.claimed ≤ before.limit → ∀ a after,
    decoder.run before = .ok (a, after) ↔ valid a ∧ before.Passes (form a) (need a) after

theorem run_bind_eq_ok_iff {decoder : Decoder α} {next : α → Decoder β} {before after : Cursor}
    {b : β} :
    (decoder >>= next).run before = .ok (b, after) ↔
      ∃ a middle, decoder.run before = .ok (a, middle) ∧ (next a).run middle = .ok (b, after) := by
  rw [StateT.run_bind]
  cases decoder.run before with
  | error fault => simp [bind, Except.bind]
  | ok pair => simp [bind, Except.bind, Prod.ext_iff, and_assoc]

namespace Decodes

variable {decoder : Decoder α} {valid valid' : α → Prop} {form form' : α → Bytes}
  {need need' : α → Nat}

/-- A description may be put in other words. -/
theorem congr (h : decoder.Decodes valid form need) (hvalid : ∀ a, valid' a ↔ valid a)
    (hform : ∀ a, valid' a → form' a = form a) (hneed : ∀ a, valid' a → need' a = need a) :
    decoder.Decodes valid' form' need' := by
  intro before hfits a after
  rw [h before hfits]
  constructor
  · intro h
    rcases h with ⟨ha, hpasses⟩
    have ha' := (hvalid a).mpr ha
    exact ⟨ha', by rwa [hform a ha', hneed a ha']⟩
  · intro h
    rcases h with ⟨ha', hpasses⟩
    exact ⟨(hvalid a).mp ha', by rwa [← hform a ha', ← hneed a ha']⟩

protected theorem pure (a : α) : (pure a : Decoder α).Decodes (· = a) (fun _ => []) fun _ => 0 := by
  intro before hfits b after
  constructor
  · intro h
    cases h
    exact ⟨rfl, .nothing hfits⟩
  · intro h
    rcases h with ⟨rfl, hpasses⟩
    rw [hpasses.eq_of_nothing]
    rfl

/-- Two parts one after the other. -/
protected theorem bind {next : α → Decoder β} {valid₁ : α → Prop} {form₁ : α → Bytes}
    {need₁ : α → Nat} {valid₂ : α → β → Prop} {form₂ : α → β → Bytes} {need₂ : α → β → Nat}
    {valid : β → Prop} {form : β → Bytes} {need : β → Nat}
    (hfirst : decoder.Decodes valid₁ form₁ need₁)
    (hsecond : ∀ a, valid₁ a → (next a).Decodes (valid₂ a) (form₂ a) (need₂ a))
    (hvalid : ∀ b, valid b ↔ ∃ a, valid₁ a ∧ valid₂ a b)
    (hform : ∀ a b, valid₁ a → valid₂ a b → form b = form₁ a ++ form₂ a b)
    (hneed : ∀ a b, valid₁ a → valid₂ a b → need b = need₁ a + need₂ a b) :
    (decoder >>= next).Decodes valid form need := by
  intro before hfits b after
  rw [run_bind_eq_ok_iff]
  constructor
  · intro h
    rcases h with ⟨a, middle, hrun, hnext⟩
    obtain ⟨ha, hpasses⟩ := (hfirst before hfits a middle).mp hrun
    obtain ⟨hb, hmore⟩ := (hsecond a ha middle hpasses.fits b after).mp hnext
    rw [hform a b ha hb, hneed a b ha hb]
    exact ⟨(hvalid b).mpr ⟨a, ha, hb⟩, hpasses.join hmore⟩
  · intro h
    rcases h with ⟨hb, hpasses⟩
    obtain ⟨a, ha, hb⟩ := (hvalid b).mp hb
    rw [hform a b ha hb, hneed a b ha hb] at hpasses
    obtain ⟨middle, hone, hother⟩ := hpasses.part
    exact ⟨a, middle, (hfirst before hfits a middle).mpr ⟨ha, hone⟩,
      (hsecond a ha middle hone.fits b after).mpr ⟨hb, hother⟩⟩

/-- Two parts one after the other, where the value of the first is seen in that of the whole. -/
theorem bindKey {next : α → Decoder β} {valid₂ : α → β → Prop} {form₂ : α → β → Bytes}
    {need₂ : α → β → Nat} (key : β → α) (hfirst : decoder.Decodes valid form need)
    (hsecond : ∀ a, valid a → (next a).Decodes (valid₂ a) (form₂ a) (need₂ a))
    (hkey : ∀ a b, valid a → valid₂ a b → key b = a) :
    (decoder >>= next).Decodes (fun b => valid (key b) ∧ valid₂ (key b) b)
      (fun b => form (key b) ++ form₂ (key b) b) fun b => need (key b) + need₂ (key b) b := by
  refine hfirst.bind hsecond (fun b => ⟨fun h => ⟨_, h⟩, ?_⟩) ?_ ?_
  · intro h
    rcases h with ⟨a, ha, hb⟩
    obtain rfl := hkey a b ha hb
    exact ⟨ha, hb⟩
  · intro a b ha hb
    rw [hkey a b ha hb]
  · intro a b ha hb
    rw [hkey a b ha hb]

/-- A part that yields its value by a check alone. -/
protected theorem lift {value : Except Fault α} (h : ∀ a, value = .ok a ↔ valid a) :
    (liftM value : Decoder α).Decodes valid (fun _ => []) fun _ => 0 := by
  intro before hfits a after
  -- A check does not move the cursor.
  have hrun : (liftM value : Decoder α).run before = value.map (·, before) := by
    cases value <;> rfl
  rw [hrun]
  constructor
  · intro hmap
    cases value with
    | error fault => cases hmap
    | ok b =>
        cases hmap
        exact ⟨(h a).mp rfl, .nothing hfits⟩
  · intro h
    rcases h with ⟨ha, hpasses⟩
    rw [(h a).mpr ha, hpasses.eq_of_nothing]
    rfl

/-- A part that fails yields no value. -/
protected theorem throw (fault : Fault) (hvalid : ∀ a, ¬ valid a) :
    (throw fault : Decoder α).Decodes valid form need := by
  intro before hfits a after
  constructor
  · intro h
    cases h
  · intro h
    rcases h with ⟨ha, -⟩
    exact absurd ha (hvalid a)

protected theorem claim (size : Nat) :
    (Decoder.claim size).Decodes (fun _ => True) (fun _ => []) fun _ => size := by
  rintro before hfits ⟨⟩ ⟨rest, claimed, limit⟩
  have hrun : (Decoder.claim size).run before = Decoder.claim size before := rfl
  rw [hrun, Decoder.claim]
  split_ifs with hreach
  · constructor
    · intro h
      cases h
      exact ⟨trivial, rfl, rfl, rfl, hreach⟩
    · intro h
      rcases h with ⟨-, hrest, rfl, rfl, -⟩
      obtain rfl : before.rest = rest := hrest
      rfl
  · constructor
    · intro h
      cases h
    · intro h
      rcases h with ⟨-, -, rfl, rfl, h⟩
      exact absurd h hreach

/-- A claim ahead of a part adds to what is claimed. -/
theorem afterClaim (size : Nat) (h : decoder.Decodes valid form need) :
    (Decoder.claim size >>= fun _ => decoder).Decodes valid form fun a => size + need a :=
  (Decodes.claim size).bind (fun _ _ => h) (fun _ => by simp) (fun _ _ _ _ => rfl)
    fun _ _ _ _ => rfl

protected theorem bytes (size : Nat) :
    (Decoder.bytes size).Decodes (·.length = size) id fun _ => 0 := by
  rintro before hfits text ⟨rest, claimed, limit⟩
  have hrun : (Decoder.bytes size).run before = Decoder.bytes size before := rfl
  rw [hrun, Decoder.bytes]
  constructor
  · intro h
    split_ifs at h with hsize
    cases h
    exact ⟨List.length_take_of_le hsize, (List.take_append_drop size before.rest).symm, rfl, rfl,
      hfits⟩
  · intro h
    rcases h with ⟨hsize, hrest, rfl, rfl, -⟩
    obtain rfl := hsize
    have hrest' : before.rest = text ++ rest := hrest
    rw [hrest', if_pos (by simp), List.take_left, List.drop_left]
    rfl

protected theorem word (order : ByteOrder) (size : Nat) :
    (Decoder.word order size).Decodes (· < wordBound size) (order.encode size) fun _ => 0 := by
  rintro before hfits word ⟨rest, claimed, limit⟩
  have hrun : (Decoder.word order size).run before = Decoder.word order size before := rfl
  rw [hrun, Decoder.word]
  constructor
  · intro h
    split_ifs at h with hsize
    cases h
    have hlength : (before.rest.take size).length = size := List.length_take_of_le hsize
    have hencode := order.encode_decode (before.rest.take size)
    rw [hlength] at hencode
    refine ⟨?_, ?_, rfl, rfl, hfits⟩
    · have hword := order.decode_lt (before.rest.take size)
      rwa [hlength] at hword
    · rw [hencode, List.take_append_drop]
  · intro h
    rcases h with ⟨hword, hrest, rfl, rfl, -⟩
    have hrest' : before.rest = order.encode size word ++ rest := hrest
    have hlength := order.length_encode size word
    rw [hrest', if_pos (by simp [hlength]), List.take_left' hlength, List.drop_left' hlength,
      order.decode_encode, Nat.mod_eq_of_lt hword]
    rfl

/-- A list to whose front a value is put that was read before it. -/
protected theorem cons {decoder : Decoder (List α)} {valid : List α → Prop} {form : List α → Bytes}
    {need : List α → Nat} (a : α) (h : decoder.Decodes valid form need) :
    (decoder >>= fun as => pure (a :: as)).Decodes (fun all => ∃ as, valid as ∧ all = a :: as)
      (fun all => form all.tail) fun all => need all.tail := by
  refine h.bind (fun as _ => Decodes.pure (a :: as)) (fun _ => Iff.rfl) ?_ ?_
  · intro as all _ heq
    rcases heq with rfl
    exact (List.append_nil _).symm
  · intro as all _ heq
    rcases heq with rfl
    rfl

/-- The same part several times. -/
protected theorem times (count : Nat) (h : decoder.Decodes valid form fun _ => 0) :
    (decoder.times count).Decodes (fun as => as.length = count ∧ ∀ a ∈ as, valid a)
      (fun as => as.flatMap form) fun _ => 0 := by
  induction count with
  | zero =>
      refine (Decodes.pure []).congr (fun as => ?_) ?_ fun _ _ => rfl
      · constructor
        · intro h
          rcases h with ⟨hlength, -⟩
          exact List.length_eq_zero_iff.mp hlength
        · intro heq
          rcases heq with rfl
          simp
      · intro as h
        rcases h with ⟨hlength, -⟩
        rw [List.length_eq_zero_iff.mp hlength]
        rfl
  | succ count ih =>
      refine h.bind (fun a _ => ih.cons a) (fun as => ?_) ?_ fun _ _ _ _ => rfl
      · constructor
        · intro h
          rcases h with ⟨hlength, hall⟩
          obtain ⟨a, rest, rfl⟩ := List.exists_cons_of_length_eq_add_one hlength
          rw [List.forall_mem_cons] at hall
          exact ⟨a, hall.1, rest, ⟨Nat.succ.inj hlength, hall.2⟩, rfl⟩
        · intro h
          rcases h with ⟨a, ha, rest, ⟨hlength, hall⟩, rfl⟩
          exact ⟨congrArg (· + 1) hlength, List.forall_mem_cons.mpr ⟨ha, hall⟩⟩
      · intro a as _ h
        rcases h with ⟨rest, -, rfl⟩
        rfl

end Decodes

end Decoder

end Snapshot
