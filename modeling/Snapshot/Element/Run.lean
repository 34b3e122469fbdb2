import Snapshot.Element.Basic
import Snapshot.Fault

/-!
# Runs of elements

A column of vectors stores the components of one particle after another, so one
component of all particles is every third element.  Such a run is picked out of raw
bytes by cutting them into whole elements, skipping to the component and then taking
every `stride`-th one (`Run.chunks`).  The length of the bytes is checked first
(`Run.check`), so a run is decoded whole or not at all.

The members may be wanted as a list (`Run.select`), or be handed to a sink one by
one (`Run.feed`); `Run.writeInto` has them written into a list.
-/

namespace Snapshot

/-- The first `count` pieces of `size` bytes. -/
def pieces (size : Nat) : Nat → Bytes → List Bytes
  | 0, _ => []
  | count + 1, raw => raw.take size :: pieces size count (raw.drop size)

/-- The bytes cut into whole elements; a rest that is too short is dropped. -/
def wholeElements (size : Nat) (raw : Bytes) : List Bytes :=
  pieces size (raw.length / size) raw

/-- Every `stride`-th member of a list, after skipping the first `skip`. -/
def everyNth {α : Type} (stride : Nat) : Nat → List α → List α
  | _, [] => []
  | 0, a :: rest => a :: everyNth stride (stride - 1) rest
  | skip + 1, _ :: rest => everyNth stride skip rest

/-- How the elements of a run lie in the bytes of a column. -/
structure Run where
  type : ElementType
  order : ByteOrder
  /-- Elements from one member of the run to the next; zero counts as one. -/
  stride : Nat
  /-- Elements before the first member. -/
  component : Nat
  /-- Members of the run. -/
  count : Nat

namespace Run

/-- The stride that is in effect. -/
def step (run : Run) : Nat := max run.stride 1

/-- The bytes up to the end of the last member, for a run that has one. -/
def needed (run : Run) : Nat :=
  ((run.count - 1) * run.step + run.component + 1) * run.type.size

/-- The run is there as a whole, or so many bytes are missing. -/
def check (run : Run) (raw : Bytes) : Except Fault Unit :=
  if run.count = 0 then .ok ()
  else if raw.length < run.needed then .error (.truncated run.needed raw.length)
  else .ok ()

/-- The bytes of the members of a run, one after the other. -/
def chunks (run : Run) (raw : Bytes) : List Bytes :=
  (everyNth run.step 0 ((wholeElements run.type.size raw).drop run.component)).take run.count

/-- The members of a run, or how many bytes are missing. -/
def select (run : Run) (raw : Bytes) : Except Fault (List (Element run.type)) :=
  (run.check raw).map fun _ => (run.chunks raw).map (Element.decode run.type run.order)

/-- The members of a run as elements of another type. -/
def convert (run : Run) (target : ElementType) (raw : Bytes) :
    Except Fault (List (Element target)) :=
  (run.select raw).map fun members => members.map (Element.convert target)

/-- Decodes one chunk after the other and hands each element over, as one of another type and
with its number, before the next chunk is looked at. -/
def handOver {σ : Type} (run : Run) (target : ElementType)
    (sink : Nat → Element target → σ → σ) : Nat → List Bytes → σ → σ
  | _, [], s => s
  | number, chunk :: chunks, s =>
    let value := (Element.decode run.type run.order chunk).convert target
    run.handOver target sink (number + 1) chunks (sink number value s)

/-- Hands the members of a run to a sink.  A run that is not there as a whole is not begun. -/
def feed {σ : Type} (run : Run) (target : ElementType) (raw : Bytes)
    (sink : Nat → Element target → σ → σ) (s : σ) : Except Fault Unit × σ :=
  match run.check raw with
  | .error fault => (.error fault, s)
  | .ok () => (.ok (), run.handOver target sink 0 (run.chunks raw) s)

/-- Writes a run into a list that has one entry for each member. -/
def writeInto {target : ElementType} (run : Run) (raw : Bytes) (entries : List (Element target)) :
    Except Fault Unit × List (Element target) :=
  { run with count := entries.length }.feed target raw
    (fun i value entries => entries.set i value) entries

end Run

/-- The identifiers `start, start + 1, …` of `count` particles; past the
greatest word they start again at zero. -/
def consecutive (target : ElementType) (start : UInt64) (count : Nat) : List (Element target) :=
  (List.range count).map fun i =>
    (Element.ofPattern .u64 (start.toNat + i)).convert target

/-- Packed elements of one type as packed elements of another, in one byte order.
Bytes that are left over after the last whole element are dropped, and elements
that keep their type are copied as they are. -/
def convertPacked (source target : ElementType) (order : ByteOrder) (raw : Bytes) :
    Except Fault Bytes :=
  if source = target then .ok (raw.take (raw.length - raw.length % source.size))
  else
    let run : Run := ⟨source, order, 1, 0, raw.length / source.size⟩
    (run.convert target raw).map fun elements => elements.flatMap (Element.encode order)

end Snapshot
