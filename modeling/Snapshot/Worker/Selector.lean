import Snapshot.Read.Error

/-!
# Selecting a worker

A read is served by the first free worker of the pool, by one particular worker,
or by a worker of its own.  Callers may also give the choice as a number.
-/

namespace Snapshot

/-- Which worker serves a read. -/
inductive Selector where
  /-- The first worker of the pool that is free. -/
  | auto
  /-- A new worker outside the pool. -/
  | own
  /-- The worker of the pool with this number. -/
  | pinned (index : Nat)
  deriving DecidableEq

namespace Selector

/-- The greatest number that a selector is written as. -/
def greatestNumber : Int := 0x7fffffffffffffff

/-- The selector that a number stands for. -/
def ofNumber (number : Int) : Except ReadError Selector :=
  if number = -2 then .ok auto
  else if number = -1 then .ok own
  else if 0 ≤ number then .ok (pinned number.toNat)
  else .error (.noSuchWorker number 0)

/-- The number that stands for a selector. -/
def toNumber : Selector → Int
  | auto => -2
  | own => -1
  | pinned index => min (index : Int) greatestNumber

/-- The selector in words. -/
def text : Selector → String
  | auto => "auto"
  | own => "private"
  | pinned index => s!"worker {index}"

end Selector

end Snapshot
