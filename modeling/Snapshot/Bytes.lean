/-!
# Words and byte order

A stored word is the list of its base-256 digits.  `digits` writes a word with
the least significant byte first, `ofDigits` reads one back, and a `ByteOrder`
says whether the list is kept or reversed.  Writing cuts a word down to its
size, so reading what was written gives the word modulo `wordBound size`;
reading and then writing gives back every run of bytes.
-/

namespace Snapshot

/-- A run of stored bytes. -/
abbrev Bytes := List UInt8

/-- The number of different words of `size` bytes. -/
def wordBound (size : Nat) : Nat := Nat.pow 256 size

/-- The base-256 digits of a word, least significant first. -/
def digits : Nat → Nat → Bytes
  | 0, _ => []
  | size + 1, word => UInt8.ofNat word :: digits size (word / 256)

/-- The word that a run of digits denotes, least significant first. -/
def ofDigits : Bytes → Nat
  | [] => 0
  | byte :: rest => byte.toNat + 256 * ofDigits rest

@[simp] theorem length_digits (size word : Nat) : (digits size word).length = size := by
  induction size generalizing word with
  | zero => rfl
  | succ size ih => simp [digits, ih]

theorem wordBound_zero : wordBound 0 = 1 := rfl

theorem wordBound_succ (size : Nat) : wordBound (size + 1) = 256 * wordBound size :=
  Nat.mul_comm (wordBound size) 256

/-- A word that was cut to `size` bytes reads back modulo `wordBound size`. -/
theorem ofDigits_digits (size word : Nat) :
    ofDigits (digits size word) = word % wordBound size := by
  induction size generalizing word with
  | zero => simp [digits, ofDigits, wordBound_zero, Nat.mod_one]
  | succ size ih => simp [digits, ofDigits, ih, wordBound_succ, Nat.mod_mul]

/-- Every run of bytes is the digits of the word it denotes. -/
theorem digits_ofDigits (bytes : Bytes) : digits bytes.length (ofDigits bytes) = bytes := by
  induction bytes with
  | nil => rfl
  | cons byte rest ih =>
    have low : UInt8.ofNat (byte.toNat + 256 * ofDigits rest) = byte := by
      apply UInt8.toNat_inj.mp
      have := byte.toNat_lt
      simp
    have high : (byte.toNat + 256 * ofDigits rest) / 256 = ofDigits rest := by
      have := byte.toNat_lt
      omega
    simp [digits, ofDigits, low, high, ih]

/-- A run of bytes denotes one of the words of its size. -/
theorem ofDigits_lt (bytes : Bytes) : ofDigits bytes < wordBound bytes.length := by
  have hword := ofDigits_digits bytes.length (ofDigits bytes)
  rw [digits_ofDigits] at hword
  rw [hword]
  exact Nat.mod_lt _ (Nat.pow_pos (by decide))

/-- Which end of a word is stored first. -/
inductive ByteOrder where
  | little
  | big
  deriving DecidableEq

namespace ByteOrder

/-- The other byte order. -/
def flip : ByteOrder → ByteOrder
  | little => big
  | big => little

/-- Digits with the least significant first, as this order stores them; the
same step turns stored bytes back into digits. -/
def arrange : ByteOrder → Bytes → Bytes
  | little, bytes => bytes
  | big, bytes => bytes.reverse

/-- The `size` bytes that store a word. -/
def encode (order : ByteOrder) (size word : Nat) : Bytes :=
  order.arrange (digits size word)

/-- The word that a run of bytes stores. -/
def decode (order : ByteOrder) (bytes : Bytes) : Nat :=
  ofDigits (order.arrange bytes)

@[simp] theorem length_arrange (order : ByteOrder) (bytes : Bytes) :
    (order.arrange bytes).length = bytes.length := by
  cases order <;> simp [arrange]

@[simp] theorem arrange_arrange (order : ByteOrder) (bytes : Bytes) :
    order.arrange (order.arrange bytes) = bytes := by
  cases order <;> simp [arrange]

@[simp] theorem length_encode (order : ByteOrder) (size word : Nat) :
    (order.encode size word).length = size := by
  simp [encode]

theorem decode_encode (order : ByteOrder) (size word : Nat) :
    order.decode (order.encode size word) = word % wordBound size := by
  simp [encode, decode, ofDigits_digits]

theorem encode_decode (order : ByteOrder) (bytes : Bytes) :
    order.encode bytes.length (order.decode bytes) = bytes := by
  have := digits_ofDigits (order.arrange bytes)
  simp only [length_arrange] at this
  simp [encode, decode, this]

theorem decode_lt (order : ByteOrder) (bytes : Bytes) :
    order.decode bytes < wordBound bytes.length := by
  have hword := ofDigits_lt (order.arrange bytes)
  rwa [length_arrange] at hword

end ByteOrder

/-! ## Sizes -/

/-- The greatest length and the greatest place in a file that can be stated. -/
def sizeLimit : Nat := 0xffffffffffffffff

/-- A sum or product that would pass the limit stays at it. -/
def clamp (size : Nat) : Nat := min size sizeLimit

/-- The sum of a list of sizes. -/
def totalSize (sizes : List Nat) : Nat := sizes.foldr (· + ·) 0

theorem totalSize_append (sizes others : List Nat) :
    totalSize (sizes ++ others) = totalSize sizes + totalSize others := by
  induction sizes with
  | nil => exact (Nat.zero_add _).symm
  | cons size sizes ih =>
    show size + totalSize (sizes ++ others) = size + totalSize sizes + totalSize others
    rw [ih, Nat.add_assoc]

end Snapshot
