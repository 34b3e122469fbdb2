import Snapshot.Image.Basic

/-!
# Sample images

A small file of the kind that a simulation writes, with values that can be told
from the number of the particle and of the component: component `k` of particle
`i` has the position `i + k / 10` and the velocity `-(3 * i + k)`, and the
particle has the potential `i / 2`.  Identifiers are not stored.
-/

namespace Snapshot

/-- The patterns of 0, 0.1 and 0.2 in single precision. -/
def tenths : List Nat := [0, 0x3dcccccd, 0x3e4ccccd]

/-- The positions of `n` particles. -/
def samplePositions (n : Nat) : List (Element .f32) :=
  (List.range n).flatMap fun i =>
    tenths.map fun tenth =>
      let whole := binary32.decode (binary32.ofNat i)
      Element.ofPattern .f32 (binary32.encode (whole.addUnsigned (binary32.decode tenth)))

/-- The velocities of `n` particles. -/
def sampleVelocities (n : Nat) : List (Element .f32) :=
  (List.range (3 * n)).map fun i =>
    Element.ofPattern .f32 (binary32.encode (binary32.decode (binary32.ofNat i)).negate)

/-- The potentials of `n` particles. -/
def samplePotentials (n : Nat) : List (Element .f64) :=
  (List.range n).map fun i =>
    Element.ofPattern .f64 (binary64.encode (.finite false (i * (unitsPerOne / 2))))

namespace Image

/-- An image of `n` particles without columns. -/
def ofCount (n : Nat) : Image where
  version := newestVersion
  order := .little
  preamble :=
    let count := Int64.ofNat n
    { format := 1
      count := count
      total := count * 8
      geometry := ⟨⟨count, 1, 1⟩, Triple.replicate 0, ⟨count * 2, 2, 2⟩⟩
      firstId := 0
      cosmology :=
        { redshift := 0x3ff0000000000000
          omegaMatter := 0x3fd147ae147ae148
          omegaLambda := 0x3fe75c28f5c28f5c
          hubble := 0x3fe6666666666666
          boxSize := 0x405f400000000000
          particleMass := 0x41d954fc40000000 } }
  native := Utf8.encode "gadget2 header".toList
  columns := []

/-- An image of `n` particles with positions, velocities and potentials. -/
def sample (n : Nat) : Image :=
  { ofCount n with
    columns :=
      [⟨"x", 3, .f32, samplePositions n⟩, ⟨"v", 3, .f32, sampleVelocities n⟩,
        ⟨"phi", 1, .f64, samplePotentials n⟩] }

end Image

end Snapshot
