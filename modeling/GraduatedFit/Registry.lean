/-!
Records of events, and listeners that write to them. Several listeners may share a record.
-/

namespace GraduatedFit

/-- Records by number, and the listeners in the order in which they were registered. A listener is the number of the
record that it writes to. -/
structure Registry (ρ : Type) where
  records : List ρ
  listeners : List Nat := []

namespace Registry

variable {ρ ε : Type}

def register (registry : Registry ρ) (record : Nat) : Registry ρ :=
  { registry with listeners := registry.listeners ++ [record] }

def isEmpty (registry : Registry ρ) : Bool := registry.listeners.isEmpty

def size (registry : Registry ρ) : Nat := registry.listeners.length

/-- Every listener hears of an event once. -/
def notify (observe : ρ → ε → ρ) (registry : Registry ρ) (event : ε) : Registry ρ :=
  { registry with
    records := registry.listeners.foldl (fun records listener => records.modify listener (observe · event))
      registry.records }

end Registry

end GraduatedFit
