import GraduatedFit.Error
import GraduatedFit.Vec

/-!
Estimates: named vectors, in the order of their names.
-/

namespace GraduatedFit

/-- The names increase by code point, so none occurs twice. -/
structure Values (K : Type) where
  entries : List (String × Vec K)
  increasing : entries.Pairwise fun a b => a.1 < b.1

namespace Values

variable {K : Type}

def empty : Values K := ⟨[], .nil⟩

def keys (values : Values K) : List String := values.entries.map Prod.fst

def size (values : Values K) : Nat := values.entries.length

def get? (values : Values K) (key : String) : Option (Vec K) := values.entries.lookup key

def contains (values : Values K) (key : String) : Bool := (values.get? key).isSome

def dim? (values : Values K) (key : String) : Option Nat := (values.get? key).map List.length

/-- The value of a variable that has to be there. -/
def find (values : Values K) (key : String) : Result K (Vec K) :=
  match values.get? key with
  | some value => .ok value
  | none => .failModel (.lookup (.missing key))

def insertEntry (key : String) (value : Vec K) : List (String × Vec K) → List (String × Vec K)
  | [] => [(key, value)]
  | entry :: rest =>
    if key < entry.1 then (key, value) :: entry :: rest
    else if key = entry.1 then (key, value) :: rest
    else entry :: insertEntry key value rest

theorem mem_insertEntry {key : String} {value : Vec K} {entries : List (String × Vec K)}
    {entry : String × Vec K} (member : entry ∈ insertEntry key value entries) :
    entry.1 = key ∨ entry ∈ entries := by
  induction entries with
  | nil => simp [insertEntry] at member; simp [member]
  | cons head rest ih =>
    simp only [insertEntry] at member
    split at member
    · simp only [List.mem_cons] at member ⊢
      rcases member with rfl | member
      · exact .inl rfl
      · exact .inr member
    · split at member
      · simp only [List.mem_cons] at member ⊢
        rcases member with rfl | member
        · exact .inl rfl
        · exact .inr (.inr member)
      · simp only [List.mem_cons] at member ⊢
        rcases member with rfl | member
        · exact .inr (.inl rfl)
        · exact (ih member).imp id .inr

theorem insertEntry_increasing {key : String} {value : Vec K} {entries : List (String × Vec K)}
    (increasing : entries.Pairwise fun a b => a.1 < b.1) :
    (insertEntry key value entries).Pairwise fun a b => a.1 < b.1 := by
  induction entries with
  | nil => simp [insertEntry]
  | cons head rest ih =>
    obtain ⟨first, later⟩ := List.pairwise_cons.mp increasing
    simp only [insertEntry]
    split
    · rename_i before
      refine List.pairwise_cons.mpr ⟨?_, increasing⟩
      intro entry member
      rcases List.mem_cons.mp member with rfl | member
      · exact before
      · exact String.lt_trans before (first entry member)
    · split
      · rename_i same
        exact List.pairwise_cons.mpr ⟨fun entry member => same ▸ first entry member, later⟩
      · rename_i after different
        refine List.pairwise_cons.mpr ⟨?_, ih later⟩
        intro entry member
        rcases mem_insertEntry member with found | member
        · exact found ▸ Std.lt_of_le_of_ne (String.not_lt.mp after) (Ne.symm different)
        · exact first entry member

def insert (values : Values K) (key : String) (value : Vec K) : Values K :=
  ⟨insertEntry key value values.entries, insertEntry_increasing values.increasing⟩

/-- Of several entries with one name the last one counts. -/
def ofList (entries : List (String × Vec K)) : Values K :=
  entries.foldl (fun values entry => values.insert entry.1 entry.2) empty

/-- The same names with values changed by a function of the name and the value. -/
def mapValues (values : Values K) (f : String → Vec K → Vec K) : Values K :=
  ⟨values.entries.map fun entry => (entry.1, f entry.1 entry.2), by
    simpa [List.pairwise_map] using values.increasing⟩

variable [Scalar K]

def normSq (values : Values K) : K := (values.entries.map fun entry => Vec.normSq entry.2).foldl (· + ·) 0

/-- Add a stacked step to the variables named by `order`, one block after the other; an unknown name takes no block.
There is no result when the step is too short. -/
def retract? (values : Values K) : List String → Vec K → Option (Values K)
  | [], _ => some values
  | key :: order, step =>
    match values.get? key with
    | none => retract? values order step
    | some value =>
      if value.length ≤ step.length then
        let moved := values.mapValues fun k v => if k = key then List.zipWith (· + ·) v step else v
        retract? moved order (step.drop value.length)
      else none

/-- The same names, and values related entry by entry. -/
def agree (related : K → K → Bool) (a b : Values K) : Bool :=
  a.size == b.size && a.entries.all fun entry =>
    match b.get? entry.1 with
    | some value => Vec.agree related entry.2 value
    | none => false

/-- Entries at most `tolerance` apart. -/
def equals (tolerance : K) : Values K → Values K → Bool :=
  agree fun a b => Scalar.le (Scalar.abs (a - b)) tolerance

def same : Values K → Values K → Bool := agree Scalar.eq

end Values

end GraduatedFit
