import GraduatedFit.Continuation.Optimizer

/-!
Records of continuations.
-/

namespace GraduatedFit

namespace Continuation

structure Record (K : Type) where
  iteration : Nat
  mu : K
  weights : Vec K
  cost : K

/-- The iterations seen so far and how the last run that finished ended. -/
structure History (K : Type) where
  records : List (Record K) := []
  ending : Option (Outcome × Nat) := none

namespace History

variable {K : Type}

def observe (history : History K) : Event K → History K
  | .iterated i => { history with records := history.records ++ [⟨i.iteration, i.mu, i.weights, i.cost⟩] }
  | .finished outcome iterations _ => { history with ending := some (outcome, iterations) }
  | _ => history

def observeAll (history : History K) (events : List (Event K)) : History K := events.foldl observe history

end History

end Continuation

end GraduatedFit
