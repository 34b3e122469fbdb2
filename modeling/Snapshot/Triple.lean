/-!
# Triples

Slab sizes, positions and velocities have three components each.
-/

namespace Snapshot

/-- Three values of one kind, one for each axis. -/
structure Triple (α : Type) where
  first : α
  second : α
  third : α
  deriving DecidableEq

namespace Triple

variable {α β : Type}

/-- The same value three times. -/
def replicate (a : α) : Triple α := ⟨a, a, a⟩

/-- The three values in order. -/
def toList (t : Triple α) : List α := [t.first, t.second, t.third]

/-- One function on each component. -/
def map (f : α → β) (t : Triple α) : Triple β := ⟨f t.first, f t.second, f t.third⟩

/-- The triple with component `axis` replaced; it has the axes 0, 1 and 2. -/
def set (t : Triple α) (axis : Nat) (a : α) : Triple α :=
  match axis with
  | 0 => { t with first := a }
  | 1 => { t with second := a }
  | 2 => { t with third := a }
  | _ => t

/-- The values of a list, three at a time; one or two left over are dropped. -/
def group : List α → List (Triple α)
  | a :: b :: c :: rest => ⟨a, b, c⟩ :: group rest
  | _ => []

/-- The components of all triples in one list. -/
def flatten (triples : List (Triple α)) : List α := triples.flatMap toList

@[simp] theorem length_toList (t : Triple α) : t.toList.length = 3 := rfl

@[simp] theorem group_flatten (triples : List (Triple α)) : group (flatten triples) = triples := by
  induction triples with
  | nil => rfl
  | cons t rest ih =>
    have step : flatten (t :: rest) = t.first :: t.second :: t.third :: flatten rest := rfl
    simp [step, group, ih]

end Triple

end Snapshot
