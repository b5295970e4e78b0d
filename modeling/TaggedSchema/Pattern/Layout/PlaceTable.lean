import Std.Data.HashMap

/-!
# Tables with a fixed number of places

A table that remembers numbers under keys and does not grow. Every key has one place, and what is
put there takes the room of what was there before, so a table may forget.
-/

namespace TaggedSchema.Pattern

/-- The 64-bit FNV-1a hash of a sequence of numbers. -/
def fnvHash (numbers : List Nat) : UInt64 :=
  numbers.foldl (fun hash number => (hash ^^^ number.toUInt64) * 0x100000001b3) 0xcbf29ce484222325

structure PlaceTable where
  places : Nat
  /-- The key and the number at every place that is taken. -/
  entries : Std.HashMap Nat (List Nat × Nat)

namespace PlaceTable

def empty (places : Nat) : PlaceTable := ⟨places, ∅⟩

def place (table : PlaceTable) (key : List Nat) : Nat :=
  (fnvHash key).toNat % table.places

def find? (table : PlaceTable) (key : List Nat) : Option Nat :=
  match table.entries[table.place key]? with
  | some (found, number) => if found = key then some number else none
  | none => none

def insert (table : PlaceTable) (key : List Nat) (number : Nat) : PlaceTable :=
  { table with entries := table.entries.insert (table.place key) (key, number) }

theorem find?_empty (places : Nat) (key : List Nat) : (empty places).find? key = none := by
  simp [empty, find?]

theorem find?_insert_self (table : PlaceTable) (key : List Nat) (number : Nat) :
    (table.insert key number).find? key = some number := by
  simp [insert, find?, place]

end PlaceTable

end TaggedSchema.Pattern
